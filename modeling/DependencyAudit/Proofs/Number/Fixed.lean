import DependencyAudit.Proofs.Number.Shortest
import DependencyAudit.Proofs.Text.Blank

/-!
Characters of written numbers. Whatever number is written, with its sign and with a fixed number
of places, it is written in at least one character, and all of them are digits, signs and points
or letters of the words for what is no number. None of these is white space.
-/
namespace DependencyAudit
variable {s t : List Char} {c : Char}

def isFigure (c : Char) : Bool := isDigit c || ['-', '.', 'n', 'a', 'i', 'f'].contains c

/-- A number as it may be written. -/
def Figure (s : List Char) : Prop := s ≠ [] ∧ ∀ c ∈ s, isFigure c = true

theorem isBlank_of_isFigure (h : isFigure c = true) : Text.isBlank c = false := by
  rw [← Bool.not_eq_true]
  intro blank
  have other := Text.forall_of_isBlank (p := fun c => !isFigure c) (by decide +kernel) blank
  simp [h] at other

namespace Figure

theorem append (h : Figure s) (rest : ∀ c ∈ t, isFigure c = true) : Figure (s ++ t) :=
  ⟨List.append_ne_nil_of_left_ne_nil h.1 t, List.forall_mem_append.2 ⟨h.2, rest⟩⟩

theorem digits (n : Nat) : Figure (natText n) :=
  ⟨Nat.toDigits_ne_nil, fun _ hc => by rw [isFigure, isDigit_of_mem_toDigits hc, Bool.true_or]⟩

theorem sign (h : Figure s) : Figure ('-' :: s) :=
  ⟨List.cons_ne_nil _ _, List.forall_mem_cons.2 ⟨by decide, h.2⟩⟩

theorem signed (negative : Bool) (h : Figure s) : Figure (signed negative s) := by
  cases negative with
  | false => exact h
  | true => exact h.sign

theorem integer (n : Int) : Figure (intText n) := by
  rw [intText]
  split
  case isTrue => exact (digits _).sign
  case isFalse => exact digits _

theorem places (count places : Nat) : Figure (placesText count places) := by
  unfold placesText
  extract_lets digits padded whole
  have all : ∀ c ∈ padded, isFigure c = true := by
    refine List.forall_mem_append.2 ⟨fun c hc => ?_, (Figure.digits count).2⟩
    rw [(List.mem_replicate.1 hc).2]
    decide
  have longer : places < padded.length := by
    rw [List.length_append, zeros, List.length_replicate]
    omega
  have front : Figure whole := by
    refine ⟨?_, fun c hc => all c (List.take_subset _ _ hc)⟩
    rw [← List.length_pos_iff, List.length_take]
    omega
  split
  case isTrue => exact front
  case isFalse =>
    exact front.append (List.forall_mem_cons.2
      ⟨by decide, fun c hc => all c (List.drop_subset _ _ hc)⟩)

theorem fixed (places : Nat) (x : Float) : Figure (fixedText places x) := by
  rw [fixedText]
  split
  case h_1 => exact ⟨by decide, List.all_eq_true.1 (by decide)⟩
  case h_2 => exact signed _ ⟨by decide, List.all_eq_true.1 (by decide)⟩
  case h_3 => exact signed _ (Figure.places _ _)

end Figure
end DependencyAudit
