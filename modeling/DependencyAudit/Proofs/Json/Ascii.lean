import DependencyAudit.Json.Writing
import DependencyAudit.Proofs.Number.Numeral
import DependencyAudit.Proofs.Text.Ascii

/-!
Documents in a style that escapes. Whatever characters the texts of a tree hold, what is
written of it is ASCII.
-/
namespace DependencyAudit.Json
open Text

section Numbers
variable {s : List Char}

theorem forall_mem_toDigits {b : Nat} {p : Char → Prop} (base : 1 < b)
    (each : ∀ d < b, p (Nat.digitChar d)) (n : Nat) : ∀ c ∈ Nat.toDigits b n, p c := by
  induction n using Nat.strongRecOn with
  | _ n ih =>
      obtain small | large := Nat.lt_or_ge n b
      · rw [Nat.toDigits_of_lt_base small]
        exact List.forall_mem_singleton.2 (each n small)
      · rw [Nat.toDigits_of_base_le base large, List.forall_mem_append, List.forall_mem_singleton]
        exact ⟨ih (n / b) (Nat.div_lt_self (by omega) base), each _ (Nat.mod_lt n (by omega))⟩

theorem ascii_hexDigits (n : Nat) : Ascii (Nat.toDigits 16 n) :=
  forall_mem_toDigits (by decide) (by decide) n

theorem ascii_of_numeral (h : Numeral s) : Ascii s := by
  have each : Ascii numerals := by decide
  exact fun c hc => each c (h c hc)

theorem ascii_floatText (x : Float) : Ascii (floatText spelling x) := by
  cases parts : Parts.of x with
  | notANumber =>
      rw [floatText, parts]
      decide
  | infinite negative =>
      rw [floatText, parts]
      cases negative <;> decide
  | finite negative m q => exact ascii_of_numeral (.finite parts)

end Numbers

section Texts

theorem ascii_unitEscape (n : Nat) : Ascii (unitEscape n) := by
  simp only [unitEscape, Utf8.hexDigits, String.toList_ofList, ascii_cons_iff, ascii_append_iff]
  exact ⟨by decide, by decide, ascii_replicate (by decide) _,
    ascii_hexDigits _⟩

theorem ascii_escape (c : Char) : Ascii (escape true c) := by
  unfold escape
  split_ifs with quoted newline carriageReturn tab backspace feed unicode
  · rcases Bool.or_eq_true_iff.1 quoted with same | same <;> rw [eq_of_beq same] <;> decide
  any_goals decide
  · simp only [unicodeEscape]
    split
    · exact ascii_unitEscape _
    · exact ascii_append_iff.2 ⟨ascii_unitEscape _, ascii_unitEscape _⟩
  · rw [Bool.or_eq_true, not_or, Bool.true_and, decide_eq_true_eq, decide_eq_true_eq] at unicode
    exact ascii_cons_iff.2 ⟨by omega, ascii_nil⟩

theorem ascii_stringText (s : String) : Ascii (stringText true s) := by
  simp only [stringText, ascii_append_iff, ascii_cons_iff]
  exact ⟨⟨by decide, ascii_flatMap fun c _ => ascii_escape c⟩, by decide, ascii_nil⟩

theorem ascii_scalarText (v : Scalar) : Ascii (scalarText true v) := by
  cases v with
  | null => decide
  | bool b => cases b <;> decide
  | int n => exact ascii_of_numeral (.integer n)
  | float x => exact ascii_floatText x
  | text s | halved s | bytes _ | date _ | clock _ | moment _ => exact ascii_stringText _

end Texts

section Trees
variable {style : Style}

theorem ascii_lineStart (depth : Nat) : Ascii (style.lineStart depth) := by
  unfold Style.lineStart
  split
  · exact ascii_nil
  · exact ascii_cons_iff.2 ⟨by decide, ascii_replicate (by decide) _⟩

theorem ascii_enclose {depth : Nat} {opening closing : Char} {entries : List (List Char)}
    (opened : opening.toNat < 0x80) (closed : closing.toNat < 0x80)
    (each : ∀ e ∈ entries, Ascii e) : Ascii (style.enclose depth opening closing entries) := by
  cases entries with
  | nil => simp [Style.enclose, opened, closed]
  | cons e entries =>
      rw [List.forall_mem_cons] at each
      have more : Ascii (entries.flatMap fun e => ',' :: style.lineStart (depth + 1) ++ e) :=
        ascii_flatMap fun e he => by simp [ascii_lineStart, each.2 e he]
      simp only [Style.enclose, ascii_append_iff, ascii_cons_iff, ascii_nil, and_true]
      exact ⟨⟨⟨⟨⟨opened, ascii_lineStart _⟩, each.1⟩, more⟩, ascii_lineStart _⟩, closed⟩

mutual

theorem ascii_render (escapes : style.asciiOnly = true) (keys : Ascii style.keyEnd) (depth : Nat) :
    ∀ t, Ascii (style.render depth t)
  | .scalar v => by
      rw [Style.render, escapes]
      exact ascii_scalarText v
  | .list items => by
      rw [Style.render]
      exact ascii_enclose (by decide) (by decide) (ascii_renderItems escapes keys (depth + 1) items)
  | .table fields => by
      rw [Style.render]
      exact ascii_enclose (by decide) (by decide)
        (ascii_renderFields escapes keys (depth + 1) fields)

theorem ascii_renderItems (escapes : style.asciiOnly = true) (keys : Ascii style.keyEnd)
    (depth : Nat) : ∀ items, ∀ e ∈ style.renderItems depth items, Ascii e
  | [] => by simp [Style.renderItems]
  | t :: items => by
      rw [Style.renderItems, List.forall_mem_cons]
      exact ⟨ascii_render escapes keys depth t, ascii_renderItems escapes keys depth items⟩

theorem ascii_renderFields (escapes : style.asciiOnly = true) (keys : Ascii style.keyEnd)
    (depth : Nat) : ∀ fields, ∀ e ∈ style.renderFields depth fields, Ascii e
  | [] => by simp [Style.renderFields]
  | (key, t) :: fields => by
      rw [Style.renderFields, List.forall_mem_cons, escapes, ascii_append_iff, ascii_append_iff]
      exact ⟨⟨⟨ascii_stringText key, keys⟩, ascii_render escapes keys depth t⟩,
        ascii_renderFields escapes keys depth fields⟩

end

end Trees
end DependencyAudit.Json
