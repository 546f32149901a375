import DependencyAudit.Proofs.Number.Addition

/-!
Sums of floats against sums of the numbers that they stand for. Each step rounds once, so a sum
of sizes is as far from the exact one as its steps are many, each by a small part of it; and as
rounding keeps sizes in order, a sum of some of them is never above that of all.
-/
namespace DependencyAudit
open Float.Model Float.Model.UnpackedFloat

section Error
variable {x y : Float} {a b s t v w : ℚ} {k n r : Nat} {q : Int}

/-- How far rounding may go, as a part of what is rounded. -/
def unitRoundoff : ℚ := 1 / 2 ^ 53

theorem quarters (m : ℚ) (q : Int) : m * 2 ^ q = 4 * m * 2 ^ (q - 2) := by
  have four : (2 : ℚ) ^ q = 2 ^ (q - 2) * 4 := by
    rw [show (4 : ℚ) = 2 ^ (2 : Int) by norm_num, ← zpow_add₀ two_ne_zero, sub_add_cancel]
  rw [four]
  ring

/-- The least exponent leaves nothing to round. -/
theorem Nearest.exact (h : Nearest r (-1074) (k * 2 ^ (-1074 : Int))) : k = r := by
  have unit : (0 : ℚ) < 2 ^ (-1074 - 2 : Int) := by positivity
  have gap : gapBelow r (-1074) = 2 := if_neg fun h => h.2 rfl
  have low := h.low
  have high := h.high
  rw [quarters k, gap] at low
  rw [quarters k] at high
  have low : (4 * r - (2 : Nat) : ℚ) ≤ 4 * k := le_of_mul_le_mul_right low unit
  have high : (4 * k : ℚ) ≤ 4 * r + 2 := le_of_mul_le_mul_right high unit
  have low : 4 * r ≤ 4 * k + 2 := by
    rw [sub_le_iff_le_add] at low
    exact_mod_cast low
  have high : 4 * k ≤ 4 * r + 2 := by exact_mod_cast high
  omega

theorem gapBelow_le_mul (full : 2 ^ 52 ≤ r) (other : q ≠ -1074) :
    (gapBelow r q : ℚ) ≤ unitRoundoff * (4 * r - gapBelow r q) := by
  rw [unitRoundoff]
  unfold gapBelow
  split
  case isTrue least =>
      rw [least.1]
      norm_num
  case isFalse more =>
      have more : 2 ^ 52 + 1 ≤ r := by
        have : r ≠ 2 ^ 52 := fun least => more ⟨least, other⟩
        omega
      have more : (2 ^ 52 + 1 : ℚ) ≤ r := by exact_mod_cast more
      push_cast
      linarith

/-- Rounding takes or adds no more than a small part of a number. -/
theorem Nearest.relative (canonical : Canonical r q) (h : Nearest r q v)
    (grid : v = k * 2 ^ (-1074 : Int)) :
    (1 - unitRoundoff) * v ≤ r * 2 ^ q ∧ (r * 2 ^ q : ℚ) ≤ (1 + unitRoundoff) * v := by
  have small : 0 ≤ unitRoundoff ∧ unitRoundoff ≤ 1 := by
    rw [unitRoundoff]
    norm_num
  by_cases least : q = -1074
  · subst least
    rw [grid] at h
    rw [← h.exact, ← grid]
    have nonneg : 0 ≤ v := grid ▸ by positivity
    constructor <;> nlinarith
  · have full := canonical.full.resolve_right least
    have unit : (0 : ℚ) < 2 ^ (q - 2) := by positivity
    have gap := gapBelow_le_mul full least
    have full : (2 ^ 52 : ℚ) ≤ r := by exact_mod_cast full
    have half : (1 - unitRoundoff) * (4 * r + 2 : ℚ) ≤ 4 * r := by
      rw [unitRoundoff]
      linarith
    rw [quarters]
    constructor
    · calc (1 - unitRoundoff) * v
          ≤ (1 - unitRoundoff) * ((4 * r + 2) * 2 ^ (q - 2)) :=
            mul_le_mul_of_nonneg_left h.high (by linarith)
        _ ≤ 4 * r * 2 ^ (q - 2) := by
            rw [← mul_assoc]
            exact mul_le_mul_of_nonneg_right half unit.le
    · calc (4 * r * 2 ^ (q - 2) : ℚ)
          ≤ (1 + unitRoundoff) * ((4 * r - gapBelow r q) * 2 ^ (q - 2)) := by
            rw [← mul_assoc]
            exact mul_le_mul_of_nonneg_right (by linarith) unit.le
        _ ≤ (1 + unitRoundoff) * v :=
            mul_le_mul_of_nonneg_left h.low (by linarith)

/-- A number after so many roundings. -/
structure Near (n : Nat) (s t : ℚ) : Prop where
  low : (1 - unitRoundoff) ^ n * s ≤ t
  high : t ≤ (1 + unitRoundoff) ^ n * s

/-- A float that a number is rounded to in so many steps, or infinity if one of them is too
large. -/
def Reaches (n : Nat) (s : ℚ) (x : Float) : Prop :=
  (∃ t, Amount x t ∧ Near n s t) ∨
    x = infinityOf false ∧ floatEnd ≤ (1 + unitRoundoff) ^ n * s

theorem unitRoundoff_nonneg : 0 ≤ unitRoundoff := by
  rw [unitRoundoff]
  norm_num

theorem unitRoundoff_le_one : unitRoundoff ≤ 1 := by
  rw [unitRoundoff]
  norm_num

theorem one_le_pow_unitRoundoff (n : Nat) : 1 ≤ (1 + unitRoundoff) ^ n :=
  one_le_pow₀ (le_add_of_nonneg_right unitRoundoff_nonneg)

theorem Near.add (h : Near n s t) (nonneg : 0 ≤ b) : Near n (s + b) (t + b) := by
  have least : (1 - unitRoundoff) ^ n ≤ 1 :=
    pow_le_one₀ (sub_nonneg.2 unitRoundoff_le_one) (sub_le_self 1 unitRoundoff_nonneg)
  have most := one_le_pow_unitRoundoff n
  constructor
  · rw [mul_add]
    exact add_le_add h.low (mul_le_of_le_one_left nonneg least)
  · rw [mul_add]
    exact add_le_add h.high (le_mul_of_one_le_left nonneg most)

theorem Near.round (h : Near n s v) (low : (1 - unitRoundoff) * v ≤ t)
    (high : t ≤ (1 + unitRoundoff) * v) : Near (n + 1) s t := by
  constructor
  · rw [pow_succ', mul_assoc]
    exact (mul_le_mul_of_nonneg_left h.low (sub_nonneg.2 unitRoundoff_le_one)).trans low
  · rw [pow_succ', mul_assoc]
    exact high.trans (mul_le_mul_of_nonneg_left h.high (by linarith [unitRoundoff_nonneg]))

/-- One more addition is one more rounding. -/
theorem Reaches.add (h : Reaches n s x) (nonneg : 0 ≤ s) (hy : Amount y b) :
    Reaches (n + 1) (s + b) (x + y) := by
  obtain ⟨t, hx, near⟩ | ⟨rfl, large⟩ := h
  · have near := near.add hy.nonneg
    obtain ⟨k, hk⟩ := hx.exists_grid
    obtain ⟨l, hl⟩ := hy.exists_grid
    obtain ⟨r, q, rounds⟩ := hx.add hy
    have grid : t + b = (k + l : Nat) * 2 ^ (-1074 : Int) := by
      rw [hk, hl, Nat.cast_add, add_mul]
    obtain ⟨low, high⟩ := rounds.nearest.relative rounds.canonical grid
    by_cases most : q ≤ 971
    · exact .inl ⟨_, rounds.within most, near.round low high⟩
    · have large := not_lt.1 (mt (rounds.nearest.most_iff rounds.canonical).2 most)
      refine .inr ⟨rounds.beyond (not_le.1 most), large.trans (near.high.trans ?_)⟩
      exact mul_le_mul_of_nonneg_right (pow_le_pow_right₀ (by linarith [unitRoundoff_nonneg])
        (Nat.le_succ n)) (add_nonneg nonneg hy.nonneg)
  · refine .inr ⟨hy.infinity_add, large.trans ?_⟩
    exact mul_le_mul (pow_le_pow_right₀ (by linarith [unitRoundoff_nonneg]) (Nat.le_succ n))
      (le_add_of_nonneg_right hy.nonneg) nonneg (zero_le_one.trans (one_le_pow_unitRoundoff _))

/-- A sum of amounts, step by step. -/
theorem Reaches.foldl {xs : List Float} {vs : List ℚ} (h : Reaches n s x) (nonneg : 0 ≤ s)
    (each : List.Forall₂ Amount xs vs) :
    Reaches (n + xs.length) (s + vs.sum) (xs.foldl (· + ·) x) := by
  induction each generalizing n s x with
  | nil => rwa [List.length_nil, List.sum_nil, add_zero, add_zero]
  | cons first others ih =>
      have rest := ih (h.add nonneg first) (add_nonneg nonneg first.nonneg)
      rw [List.length_cons, List.sum_cons, ← add_assoc s, Nat.add_comm _ 1, ← Nat.add_assoc n 1]
      exact rest

end Error

section Order
variable {x y z : Float} {v w : ℚ} {r r' : Nat} {q q' : Int}

/-- A float that is not negative, infinity among them. -/
def IsSize (x : Float) : Prop := (∃ v, Amount x v) ∨ x = infinityOf false

/-- Sizes in order, as numbers; infinity is above every size. -/
structure AtMost (x y : Float) : Prop where
  left : IsSize x
  right : IsSize y
  le : ∀ t, Amount y t → ∃ w, Amount x w ∧ w ≤ t

theorem isSize_of_zero_le (h : 0 ≤ x) : IsSize x := by
  cases value : exactValue? x with
  | some v => exact .inl ⟨v, value, nonneg_of_zero_le h value⟩
  | none =>
      have order := zero_le_ofParts h
      rw [exactValue?] at value
      have back := pack_unpack x
      rw [unpack_toModel] at back
      cases parts : Parts.of x with
      | finite negative m q =>
          rw [parts] at value
          cases value
      | notANumber =>
          rw [parts] at order
          cases order
      | infinite negative =>
          rw [parts] at order back
          cases negative with
          | true => cases order
          | false => exact .inr back.symm

theorem RoundsTo.isSize (h : RoundsTo v x r q) : IsSize x := by
  by_cases most : q ≤ 971
  · exact .inl ⟨_, h.within most⟩
  · exact .inr (h.beyond (not_le.1 most))

theorem not_amount_infinity : ¬ Amount (infinityOf false) v := by
  have valueless : exactValue? (infinityOf false) = none := by decide
  intro h
  cases valueless.symm.trans h.value

theorem IsSize.infinity_add (h : IsSize x) : infinityOf false + x = infinityOf false := by
  obtain ⟨v, amount⟩ | rfl := h
  · exact amount.infinity_add
  · rfl

theorem IsSize.add_infinity (h : IsSize x) : x + infinityOf false = infinityOf false := by
  obtain ⟨v, amount⟩ | rfl := h
  · exact amount.add_infinity
  · rfl

theorem IsSize.add (hx : IsSize x) (hy : IsSize y) : IsSize (x + y) := by
  obtain ⟨v, amount⟩ | rfl := hx
  · obtain ⟨w, amount'⟩ | rfl := hy
    · obtain ⟨r, q, rounds⟩ := amount.add amount'
      exact rounds.isSize
    · rw [IsSize.add_infinity (.inl ⟨v, amount⟩)]
      exact .inr rfl
  · rw [hy.infinity_add]
    exact .inr rfl

theorem atMost_infinity (h : IsSize x) : AtMost x (infinityOf false) :=
  ⟨h, .inr rfl, fun _ number => absurd number not_amount_infinity⟩

theorem Amount.unique (h : Amount x v) (h' : Amount x w) : v = w :=
  Option.some.inj (h.value.symm.trans h'.value)

/-- Rounding keeps sizes in order. -/
theorem RoundsTo.atMost (hx : RoundsTo v x r q) (hy : RoundsTo w y r' q') (le : v ≤ w) :
    AtMost x y := by
  by_cases most : q' ≤ 971
  · have most' := (hx.nearest.most_iff hx.canonical).2
      (le.trans_lt ((hy.nearest.most_iff hy.canonical).1 most))
    refine ⟨hx.isSize, hy.isSize, fun t number => ⟨_, hx.within most', ?_⟩⟩
    rw [number.unique (hy.within most)]
    exact hx.nearest.mono hx.canonical hy.canonical hy.nearest le
  · rw [hy.beyond (not_le.1 most)]
    exact atMost_infinity hx.isSize

/-- Only a sum of two amounts may be less than some size: any other sum is infinite. -/
theorem atMost_add (hx : IsSize x) (hy : IsSize y) (hz : IsSize z)
    (amounts : ∀ t b, Amount y t → Amount z b → AtMost x (y + z)) : AtMost x (y + z) := by
  obtain ⟨t, total⟩ | rfl := hy
  · obtain ⟨b, amount⟩ | rfl := hz
    · exact amounts t b total amount
    · rw [IsSize.add_infinity (.inl ⟨t, total⟩)]
      exact atMost_infinity hx
  · rw [hz.infinity_add]
    exact atMost_infinity hx

theorem AtMost.add (h : AtMost x y) (hz : IsSize z) : AtMost (x + z) (y + z) := by
  refine atMost_add (h.left.add hz) h.right hz fun t b total amount => ?_
  obtain ⟨w, part, le⟩ := h.le t total
  obtain ⟨r, q, rounds⟩ := part.add amount
  obtain ⟨r', q', rounds'⟩ := total.add amount
  exact rounds.atMost rounds' (add_le_add_left le b)

theorem AtMost.add_right (h : AtMost x y) (hz : IsSize z) : AtMost x (y + z) := by
  refine atMost_add h.left h.right hz fun t b total amount => ?_
  obtain ⟨w, part, le⟩ := h.le t total
  obtain ⟨r, q, rounds⟩ := roundsTo_self part
  obtain ⟨r', q', rounds'⟩ := total.add amount
  exact rounds.atMost rounds' (le_add_of_le_of_nonneg le amount.nonneg)

/-- What is added to a sum of some sizes is added to the sum of all. -/
theorem AtMost.foldl {α : Type} {size : α → Float} (p : α → Bool) {items : List α}
    (each : ∀ a ∈ items, IsSize (size a)) (h : AtMost x y) :
    AtMost (((items.filter p).map size).foldl (· + ·) x) ((items.map size).foldl (· + ·) y) := by
  induction items generalizing x y with
  | nil => exact h
  | cons a items ih =>
      obtain ⟨first, others⟩ := List.forall_mem_cons.1 each
      cases kept : p a with
      | true =>
          rw [List.filter_cons_of_pos kept]
          exact ih others (h.add first)
      | false =>
          rw [List.filter_cons_of_neg (by simp [kept])]
          exact ih others (h.add_right first)

end Order
end DependencyAudit
