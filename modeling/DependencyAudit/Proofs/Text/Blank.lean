import DependencyAudit.Text.Blank
import DependencyAudit.Text.Scan
import DependencyAudit.Text.Word
import Mathlib.Data.List.TakeWhile

/-!
Texts of white space alone, and what is left when one is taken off the front. No
white space is a letter, a number or an underscore.
-/
namespace DependencyAudit.Text

/-- Whether all of a text passes is decided along the text, not by trying every character
that there is. -/
instance decidableForallMem (s : List Char) (p : Char → Prop) [DecidablePred p] :
    Decidable (∀ c ∈ s, p c) :=
  List.decidableBAll p s

def Blank (s : List Char) : Prop := ∀ c ∈ s, isBlank c = true

/-- There are few enough white characters to try each. -/
theorem forall_of_isBlank {p : Char → Bool}
    (each : ∀ r ∈ blankRanges, ∀ i ∈ List.range (r.2 + 1 - r.1), p (Char.ofNat (r.1 + i)) = true)
    {c : Char} (h : isBlank c = true) : p c = true := by
  obtain ⟨r, hr, low, high⟩ := inRanges_iff.1 h
  have here := each r hr (c.toNat - r.1) (List.mem_range.2 (by omega))
  rwa [Nat.add_sub_cancel' low, Char.ofNat_toNat] at here

theorem not_isWord_of_isBlank {c : Char} (h : isBlank c = true) : isWord c = false := by
  have other := forall_of_isBlank (p := fun c => !isWord c) (by decide +kernel) h
  simpa using other

theorem not_isAlpha_of_isBlank {c : Char} (h : isBlank c = true) : c.isAlpha = false := by
  have other := forall_of_isBlank (p := fun c => !c.isAlpha) (by decide +kernel) h
  simpa using other

theorem trimLeft_append {blanks s : List Char} (h : Blank blanks)
    (stops : ∀ c ∈ s.head?, isBlank c = false) : trimLeft (blanks ++ s) = s :=
  (takeWhile_dropWhile_iff.2 ⟨h, stops, rfl⟩).2

theorem exists_trimLeft (s : List Char) : ∃ blanks, Blank blanks ∧ s = blanks ++ trimLeft s :=
  have ⟨blanks, _, split⟩ := takeWhile_dropWhile_iff.1 ⟨rfl, rfl⟩
  ⟨_, blanks, split⟩

theorem trimRight_append {s blanks : List Char} (h : Blank blanks)
    (stops : ∀ c ∈ s.getLast?, isBlank c = false) : trimRight (s ++ blanks) = s := by
  have back : Blank blanks.reverse := fun c hc => h c (List.mem_reverse.1 hc)
  have first : trimLeft (blanks.reverse ++ s.reverse) = s.reverse :=
    trimLeft_append back (by rwa [List.head?_reverse])
  rw [trimRight, List.reverse_append]
  exact (congrArg List.reverse first).trans s.reverse_reverse

/-- A text that neither starts nor ends with white space is what is left of it between white
space. -/
theorem trim_append {before s after : List Char} (first : Blank before) (last : Blank after)
    (nonempty : s ≠ []) (starts : ∀ c ∈ s.head?, isBlank c = false)
    (ends : ∀ c ∈ s.getLast?, isBlank c = false) : trim (before ++ s ++ after) = s := by
  have front : (s ++ after).head? = s.head? := by
    cases s with
    | nil => exact absurd rfl nonempty
    | cons c s => rfl
  rw [trim, List.append_assoc, trimLeft_append first (by rwa [front]), trimRight_append last ends]

theorem trim_of_visible {s : List Char} (visible : ∀ c ∈ s, isBlank c = false) : trim s = s := by
  cases s with
  | nil => rfl
  | cons c s =>
      have blank : Blank [] := List.forall_mem_nil _
      have kept := trim_append blank blank (List.cons_ne_nil c s)
        (fun d hd => visible d (List.mem_of_head? hd))
        (fun d hd => visible d (List.mem_of_getLast? hd))
      rwa [List.nil_append, List.append_nil] at kept

theorem trim_eq_nil_iff {s : List Char} : trim s = [] ↔ Blank s := by
  obtain ⟨blanks, blank, split⟩ := exists_trimLeft s
  have left : trimLeft s = [] ↔ Blank s := List.dropWhile_eq_nil_iff
  have right : trim s = [] ↔ Blank (trimLeft s) := by
    rw [trim, trimRight, List.reverse_eq_nil_iff, List.dropWhile_eq_nil_iff]
    exact forall_congr' fun c => imp_congr_left List.mem_reverse
  rw [right]
  constructor
  · intro rest
    rw [split]
    exact List.forall_mem_append.2 ⟨blank, rest⟩
  · intro all
    rw [left.2 all]
    exact nofun

end DependencyAudit.Text
