import DependencyAudit.Proofs.Number.Shortest

/-!
Characters of numbers as they read back. A whole number and a finite float are written in digits,
signs, the point and the letter of an exponent; other letters stand only in the words for what is
no number and for what is not finite.
-/
namespace DependencyAudit

def numerals : List Char :=
  ['0', '1', '2', '3', '4', '5', '6', '7', '8', '9', '.', 'e', '+', '-']

/-- A text of such characters. -/
def Numeral (s : List Char) : Prop := ∀ c ∈ s, c ∈ numerals

namespace Numeral
variable {s t : List Char} {d : Decimal} {c : Char} {negative : Bool} {m : Nat} {q : Int}

theorem cons_iff : Numeral (c :: s) ↔ c ∈ numerals ∧ Numeral s := List.forall_mem_cons

theorem append_iff : Numeral (s ++ t) ↔ Numeral s ∧ Numeral t := List.forall_mem_append

theorem of_subset (h : Numeral t) (subset : s ⊆ t) : Numeral s := fun c hc => h c (subset hc)

theorem of_isDigit (h : ∀ c ∈ s, isDigit c = true) : Numeral s := by
  intro c hc
  have digit := h c hc
  rw [isDigit, Bool.and_eq_true, decide_eq_true_eq, decide_eq_true_eq] at digit
  have all : ∀ n < 58, 48 ≤ n → Char.ofNat n ∈ numerals := by decide
  have found := all c.toNat (Nat.lt_succ_of_le digit.2) digit.1
  rwa [Char.ofNat_toNat] at found

theorem natural (n : Nat) : Numeral (natText n) := of_isDigit fun _ => isDigit_of_mem_toDigits

theorem ofZeros (n : Nat) : Numeral (zeros n) := by
  intro c hc
  rw [(List.mem_replicate.1 hc).2]
  decide

theorem signed (negative : Bool) (h : Numeral s) : Numeral (signed negative s) := by
  cases negative with
  | false => exact h
  | true => exact cons_iff.2 ⟨by decide, h⟩

theorem integer (n : Int) : Numeral (intText n) := by
  rw [intText]
  split
  case isTrue => exact cons_iff.2 ⟨by decide, natural _⟩
  case isFalse => exact natural _

theorem exponent (e : Int) : Numeral ('e' :: Decimal.exponentText e) := by
  rw [Decimal.exponentText]
  refine cons_iff.2 ⟨by decide, append_iff.2 ⟨cons_iff.2 ⟨?_, ofZeros _⟩, natural _⟩⟩
  split <;> decide

theorem decimal (digits : Numeral d.digits) : Numeral d.text := by
  have front (n : Nat) : Numeral (d.digits.take n) := digits.of_subset (List.take_subset n _)
  have behind (n : Nat) : Numeral (d.digits.drop n) := digits.of_subset (List.drop_subset n _)
  have point {s : List Char} (h : Numeral s) : Numeral ('.' :: s) := cons_iff.2 ⟨by decide, h⟩
  rw [Decimal.text, Decimal.positional, Decimal.scientific]
  split_ifs
  · exact append_iff.2 ⟨cons_iff.2 ⟨by decide, point (ofZeros _)⟩, digits⟩
  · refine append_iff.2 ⟨append_iff.2 ⟨front _, ofZeros _⟩, point ?_⟩
    split
    case isTrue => exact ofZeros 1
    case isFalse => exact behind _
  · exact append_iff.2 ⟨append_iff.2 ⟨front 1, nofun⟩, exponent _⟩
  · exact append_iff.2 ⟨append_iff.2 ⟨front 1, point (behind 1)⟩, exponent _⟩

/-- A finite float is written as a number, and with no other characters. -/
theorem finite {spelling : Spelling} {x : Float} (parts : Parts.of x = .finite negative m q) :
    Numeral (floatText spelling x) := by
  obtain ⟨-, range⟩ := eq_floatOf parts
  rw [floatText, parts]
  split
  case h_1 same => cases same
  case h_2 same => cases same
  case h_3 => exact signed _ (cons_iff.2 ⟨by decide, cons_iff.2 ⟨by decide, ofZeros 1⟩⟩)
  case h_4 negative' m' q' nonzero same =>
      cases same
      have proper := (Decimal.shortest_spec range.toCanonical (Nat.pos_of_ne_zero nonzero)).1
      exact signed _ (decimal (of_isDigit proper.digits))

end Numeral
end DependencyAudit
