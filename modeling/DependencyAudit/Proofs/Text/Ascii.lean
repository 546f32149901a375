import DependencyAudit.Text.Utf8
import Mathlib

/-!
Texts of ASCII characters. As bytes such a text is its code points, and reading the bytes
gives the text again.
-/
namespace DependencyAudit.Text

def Ascii (s : List Char) : Prop := ∀ c ∈ s, c.toNat < 0x80

instance (s : List Char) : Decidable (Ascii s) :=
  List.decidableBAll (fun c : Char => c.toNat < 0x80) s

section Characters
variable {s t : List Char} {c : Char}

@[simp]
theorem ascii_nil : Ascii [] := by
  simp [Ascii]

@[simp]
theorem ascii_cons_iff : Ascii (c :: s) ↔ c.toNat < 0x80 ∧ Ascii s := List.forall_mem_cons

@[simp]
theorem ascii_append_iff : Ascii (s ++ t) ↔ Ascii s ∧ Ascii t := List.forall_mem_append

theorem ascii_flatMap {α : Type} {l : List α} {f : α → List Char} (h : ∀ a ∈ l, Ascii (f a)) :
    Ascii (l.flatMap f) := by
  intro c hc
  obtain ⟨a, ha, hc⟩ := List.mem_flatMap.1 hc
  exact h a ha c hc

theorem ascii_replicate (h : c.toNat < 0x80) (n : Nat) : Ascii (List.replicate n c) := by
  intro d hd
  rwa [List.eq_of_mem_replicate hd]

theorem Ascii.of_subset (h : Ascii t) (subset : s ⊆ t) : Ascii s := fun c hc => h c (subset hc)

end Characters

section Bytes
variable {s : List Char}

theorem toList_loop (bytes : ByteArray) (i : Nat) (done : List UInt8) :
    ByteArray.toList.loop bytes i done = done.reverse ++ bytes.data.toList.drop i := by
  fun_induction ByteArray.toList.loop bytes i done with
  | case1 i done inside ih =>
      have bound : i < bytes.data.toList.length := inside
      have here : bytes.get! i = bytes.data.toList[i] := by
        rw [Array.getElem_toList]
        exact getElem!_pos bytes.data i inside
      rw [ih, List.drop_eq_getElem_cons bound, here, List.reverse_cons, List.append_assoc,
        List.singleton_append]
  | case2 i done outside =>
      have ended : bytes.data.toList.length ≤ i := Nat.not_lt.1 outside
      rw [List.drop_eq_nil_of_le ended, List.append_nil]

theorem toList_eq (bytes : ByteArray) : bytes.toList = bytes.data.toList := by
  rw [ByteArray.toList, toList_loop]
  rfl

theorem utf8EncodeChar_of_lt {c : Char} (h : c.toNat < 0x80) :
    String.utf8EncodeChar c = [UInt8.ofNat c.toNat] :=
  if_pos (Nat.le_of_lt_succ h)

theorem toList_toUTF8 (h : Ascii s) :
    (String.ofList s).toUTF8.toList = s.map fun c => UInt8.ofNat c.toNat := by
  rw [toList_eq, String.toUTF8, String.toByteArray_ofList, List.utf8Encode,
    List.data_toByteArray, List.map_eq_flatMap]
  exact List.flatMap_congr fun c hc => utf8EncodeChar_of_lt (h c hc)

theorem ofNat_lt {c : Char} (h : c.toNat < 0x80) : UInt8.ofNat c.toNat < 0x80 := by
  rw [UInt8.lt_iff_toNat_lt]
  exact lt_of_le_of_lt (Nat.mod_le _ _) h

theorem lt_of_mem_toUTF8 (h : Ascii s) : ∀ b ∈ (String.ofList s).toUTF8.toList, b < 0x80 := by
  rw [toList_toUTF8 h, List.forall_mem_map]
  exact fun c hc => ofNat_lt (h c hc)

theorem decodeFrom_bytes (h : Ascii s) (pos : Nat) :
    Utf8.decodeFrom pos (s.map fun c => UInt8.ofNat c.toNat) = .ok s := by
  induction s generalizing pos with
  | nil => rfl
  | cons c s ih =>
      rw [ascii_cons_iff] at h
      have number : (UInt8.ofNat c.toNat).toNat = c.toNat :=
        Nat.mod_eq_of_lt (h.1.trans (by decide))
      have alone : Utf8.announced (UInt8.ofNat c.toNat) = 1 := if_pos (ofNat_lt h.1)
      rw [List.map_cons, Utf8.decodeFrom.eq_def]
      simp only [alone, ih h.2, number, Char.ofNat_toNat]
      rfl

theorem decode_toUTF8 (h : Ascii s) : Utf8.decode (String.ofList s).toUTF8.toList = .ok s := by
  rw [toList_toUTF8 h]
  exact decodeFrom_bytes h 0

end Bytes
end DependencyAudit.Text
