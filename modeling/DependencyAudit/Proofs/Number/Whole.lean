import DependencyAudit.Proofs.Number.Scientific

/-!
Whole numbers as floats. The floats end halfway between the largest of them and the next power
of two: a whole number that far from zero has no float near to it, and every other one has.
-/
namespace DependencyAudit
open Float.Model Float.Model.UnpackedFloat

section Whole
variable {n r : Nat} {q : Int} {v : ℚ}

theorem exists_nearest_of_quotient {num den : Nat} (positive : 0 < den)
    (full : 2 ^ 53 ≤ num / den) (places : Nat) :
    ∃ r q, Canonical r q ∧ Nearest r q (num / den * 2 ^ (-places : Int)) := by
  have log : 53 ≤ (num / den).log2 := (Nat.le_log2 (by omega)).2 full
  have kept := tells_fraction (Nat.mod_lt num positive)
  have fine : -(places : Int) ≤
      Format.binary64.targetExponent (totalExponent (num / den) (-places)) := by
    rw [targetExponent_eq]
    omega
  rw [← sub_eq_iff_eq_add'.2 (quotient_eq_add num positive)] at kept
  obtain ⟨r, q, canonical, nearest, -⟩ := exists_roundWithAccuracy .positive kept fine
  exact ⟨r, q, canonical, nearest⟩

/-- A positive number is nearest to some fraction, if exponents are as large as it takes. -/
theorem exists_nearest (positive : 0 < v) : ∃ r q, Canonical r q ∧ Nearest r q v := by
  obtain ⟨num, same⟩ := Int.eq_ofNat_of_zero_le (Rat.num_pos.2 positive).le
  have num_pos : 0 < num := by
    have := Rat.num_pos.2 positive
    omega
  -- so many places that the whole part alone fills a significand
  have full : 2 ^ 53 ≤ num * 2 ^ (v.den + 53) / v.den := by
    rw [Nat.le_div_iff_mul_le v.den_pos, pow_add, mul_comm (2 ^ v.den), ← mul_assoc]
    exact Nat.mul_le_mul (Nat.le_mul_of_pos_left _ num_pos) Nat.lt_two_pow_self.le
  obtain ⟨r, q, canonical, nearest⟩ := exists_nearest_of_quotient v.den_pos full (v.den + 53)
  have value :
      ((num * 2 ^ (v.den + 53) : Nat) / v.den * 2 ^ (-(v.den + 53 : Nat) : Int) : ℚ) = v := by
    have unit : (2 : ℚ) ^ (v.den + 53) ≠ 0 := pow_ne_zero _ two_ne_zero
    rw [Nat.cast_mul, Nat.cast_pow, Nat.cast_ofNat, zpow_neg, zpow_natCast, mul_div_right_comm,
      mul_inv_cancel_right₀ unit]
    conv_rhs => rw [← Rat.num_div_den v, same]
    rfl
  rw [value] at nearest
  exact ⟨r, q, canonical, nearest⟩

/-- What is not below the least float is not rounded to zero. -/
theorem Nearest.positive (canonical : Canonical r q) (h : Nearest r q v)
    (least : 2 ^ (-1074 : Int) ≤ v) : 0 < r := by
  by_contra zero
  obtain rfl : r = 0 := by omega
  obtain rfl : q = -1074 := canonical.full.resolve_left (by decide)
  have high : v ≤ (4 * 0 + 2) * 2 ^ (-1074 - 2 : Int) := by exact_mod_cast h.high
  have unit : (0 : ℚ) < 2 ^ (-1074 - 2 : Int) := by positivity
  have four : (2 : ℚ) ^ (-1074 : Int) = 4 * 2 ^ (-1074 - 2 : Int) := by
    rw [show (4 : ℚ) = 2 ^ (2 : Int) by norm_num, ← zpow_add₀ two_ne_zero]
    norm_num
  linarith

theorem two_zpow_le_of_one_le (h : 1 ≤ v) : 2 ^ (-1074 : Int) ≤ v :=
  (zpow_le_one_of_nonpos₀ one_le_two (by decide)).trans h

/-- Halfway between the largest float and the next power of two. -/
def floatEnd : Nat := (2 ^ 54 - 1) * 2 ^ 970

theorem floatEnd_eq : (floatEnd : ℚ) = (2 ^ 54 - 1) * 2 ^ (970 : Int) := by
  rw [floatEnd, Nat.cast_mul, Nat.cast_pow, ← zpow_natCast]
  norm_num only

theorem Nearest.most_iff (canonical : Canonical r q) (h : Nearest r q v) :
    q ≤ 971 ↔ v < floatEnd := by
  have unit : (0 : ℚ) < 2 ^ (q - 2) := by positivity
  rw [floatEnd_eq]
  constructor
  · intro most
    have small : (r : ℚ) + 1 ≤ 2 ^ 53 := by exact_mod_cast canonical.small
    have most : (2 ^ 55 - 2 : ℚ) * 2 ^ (q - 2) ≤ (2 ^ 54 - 1) * 2 ^ (970 : Int) :=
      calc (2 ^ 55 - 2 : ℚ) * 2 ^ (q - 2) = (2 ^ 54 - 1) * (2 ^ (1 : Int) * 2 ^ (q - 2)) := by ring
        _ = (2 ^ 54 - 1) * 2 ^ (1 + (q - 2)) := by rw [zpow_add₀ two_ne_zero]
        _ ≤ (2 ^ 54 - 1) * 2 ^ (970 : Int) :=
          mul_le_mul_of_nonneg_left (zpow_le_zpow_right₀ one_le_two (by omega)) (by norm_num)
    have below : (4 * r + 2 : ℚ) * 2 ^ (q - 2) ≤ (2 ^ 55 - 2) * 2 ^ (q - 2) :=
      mul_le_mul_of_nonneg_right (by linarith) unit.le
    refine lt_of_le_of_ne (h.high.trans (below.trans most)) fun tie => ?_
    -- the end itself is nearer to the power of two, because the largest significand is odd
    have even := h.even (.inr (le_antisymm h.high ((below.trans most).trans tie.ge)))
    have largest : (2 ^ 55 - 2 : ℚ) ≤ 4 * r + 2 :=
      le_of_mul_le_mul_right ((most.trans tie.ge).trans h.high) unit
    have largest : 2 ^ 53 ≤ r + 1 := by
      have : (2 ^ 53 : ℚ) ≤ r + 1 := by linarith
      exact_mod_cast this
    have := canonical.small
    omega
  · intro less
    by_contra large
    have := canonical.least
    have full : 2 ^ 52 ≤ r := canonical.full.resolve_right (by omega)
    have step : (2 : ℚ) ^ (970 : Int) ≤ 2 ^ (q - 2) :=
      zpow_le_zpow_right₀ one_le_two (by omega)
    have above : (2 ^ 54 - 1 : ℚ) * 2 ^ (970 : Int) ≤ v :=
      calc (2 ^ 54 - 1 : ℚ) * 2 ^ (970 : Int) ≤ (4 * r - gapBelow r q) * 2 ^ (q - 2) :=
            mul_le_mul (le_sub_gapBelow full (by omega)) step (by positivity)
              (le_trans (by norm_num) (le_sub_gapBelow full (by omega)))
        _ ≤ v := h.low
    exact absurd less above.not_gt

theorem isInf_floatOf {negative : Bool} (h : InRange r q) :
    (floatOf negative r q).isInf = false := by
  change (floatOf negative r q).toModel.unpack.isInf = false
  rw [unpack_floatOf h]
  unfold ofSignificand
  split <;> rfl

def infinityOf (negative : Bool) : Float :=
  .ofModel (Float.Model.pack (.infinity (signOf negative)))

theorem isInf_infinityOf (negative : Bool) : (infinityOf negative).isInf = true := by
  cases negative <;> decide

/-- An exponent that is too large is packed as infinity. -/
theorem floatOf_eq_infinityOf (positive : 0 < r) (large : 972 ≤ q) :
    floatOf false r q = infinityOf false := by
  have biased : (q + (Format.exponentBias .binary64 : Nat) + (52 : Nat)).toNat =
      (q + 1075).toNat := by
    change (q + 1023 + 52).toNat = _
    omega
  have bound : 2 ^ 11 ≤ (q + 1075).toNat + 1 := by omega
  have packed : UnpackedFloat.pack .binary64 (.finite .positive r q positive) =
      UnpackedFloat.pack .binary64 (.infinity .positive) := by
    change (if 2 ^ 11 ≤ (q + (Format.exponentBias .binary64 : Nat) + (52 : Nat)).toNat + 1 then _
      else _) = _
    rw [biased, if_pos bound]
    rfl
  simp only [floatOf, infinityOf, ofSignificand_of_pos _ positive, signOf, Bool.false_eq_true,
    if_false, Float.Model.pack, packed]

theorem lt_of_floatEnd_le (large : floatEnd ≤ n) : 2 ^ 53 < n := by
  have positive : 0 < 2 ^ 970 := by positivity
  calc 2 ^ 53 < 2 ^ 54 - 1 := by decide
    _ ≤ (2 ^ 54 - 1) * 2 ^ 970 := Nat.le_mul_of_pos_right _ positive
    _ ≤ n := large

theorem ofScientific_eq_infinityOf (large : floatEnd ≤ n) :
    Float.ofScientific n false 0 = infinityOf false := by
  have positive : 0 < n := lt_trans (by norm_num) (lt_of_floatEnd_le large)
  obtain ⟨r, q, canonical, nearest⟩ := exists_nearest (v := n) (by exact_mod_cast positive)
  have much : (floatEnd : ℚ) ≤ n := by exact_mod_cast large
  have least : (1 : ℚ) ≤ n := by exact_mod_cast positive
  have above : 972 ≤ q := by
    have := mt (nearest.most_iff canonical).1 much.not_gt
    omega
  rw [← floatOf_eq_infinityOf (nearest.positive canonical (two_zpow_le_of_one_le least)) above]
  unfold Float.ofScientific
  split
  case isTrue small => exact absurd small.1 (not_lt.2 (lt_of_floatEnd_le large).le)
  case isFalse _ =>
      change Float.ofModel (Float.Model.pack (UnpackedFloat.ofScientific .binary64 _ 0)) = _
      rw [unpacked_ofScientific positive canonical (by omega) (by decide)
        (by rwa [zpow_zero, mul_one])]
      rfl

theorem floatNearest_eq_infinityOf (negative : Bool) (large : floatEnd ≤ n) :
    floatNearest negative n 0 = infinityOf negative := by
  have positive : 0 < n := lt_trans (by norm_num) (lt_of_floatEnd_le large)
  have magnitude : (if n = 0 ∨ (Nat.toDigits 10 n).length + (0 : Int) < -400 then (0 : Float)
      else if 400 < (Nat.toDigits 10 n).length + (0 : Int) then 1 / 0
      else if (0 : Int) < 0 then Float.ofScientific n true (0 : Int).natAbs
      else Float.ofScientific n false (0 : Int).natAbs) = infinityOf false := by
    rw [if_neg (by omega), if_neg (lt_irrefl 0)]
    split_ifs
    · rfl
    · exact ofScientific_eq_infinityOf large
  rw [floatNearest, magnitude]
  cases negative <;> rfl

/-- A whole number is a float unless it is too far from zero. -/
theorem floatOfInt?_eq_none_iff (n : Int) : floatOfInt? n = none ↔ floatEnd ≤ n.natAbs := by
  have decided : floatOfInt? n = none ↔ (floatNearest (n < 0) n.natAbs 0).isInf = true := by
    simp only [floatOfInt?, ite_eq_left_iff, reduceCtorEq, imp_false, not_not]
  rw [decided]
  by_cases large : floatEnd ≤ n.natAbs
  · rw [floatNearest_eq_infinityOf _ large]
    exact iff_of_true (isInf_infinityOf _) large
  · refine iff_of_false ?_ large
    rw [Bool.not_eq_true]
    obtain zero | positive := Nat.eq_zero_or_pos n.natAbs
    · obtain rfl := Int.natAbs_eq_zero.1 zero
      decide
    · obtain ⟨r, q, canonical, nearest⟩ :=
        exists_nearest (v := n.natAbs) (by exact_mod_cast positive)
      have less : (n.natAbs : ℚ) < floatEnd := by exact_mod_cast not_le.1 large
      have range : InRange r q := ⟨canonical, (nearest.most_iff canonical).2 less⟩
      rw [floatNearest_eq _ positive range
        (nearest.positive canonical (two_zpow_le_of_one_le (by exact_mod_cast positive)))
        (by rwa [zpow_zero, mul_one])]
      exact isInf_floatOf range

end Whole
end DependencyAudit
