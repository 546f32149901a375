import DependencyAudit.Number.Shortest
import Mathlib

/-!
Rounding to the nearest binary fraction. What rounding keeps of a number is its whole part
and where the rest lies about one half; shifting and dividing preserve what is kept. A
number is nearest to one binary fraction only, so to know that a fraction is nearest is to
know what rounding gives.
-/
namespace DependencyAudit
open Float.Model Float.Model.UnpackedFloat

/-- The significands and exponents of binary fractions, without a largest one. -/
structure Canonical (m : Nat) (q : Int) : Prop where
  small : m < 2 ^ 53
  least : -1074 ≤ q
  full : 2 ^ 52 ≤ m ∨ q = -1074

/-- Quarters of a unit from a fraction halfway down to the one below it. -/
def gapBelow (m : Nat) (q : Int) : Nat := if m = 2 ^ 52 ∧ q ≠ -1074 then 1 else 2

/-- A number that is nearest to `m * 2 ^ q`; halfway between two the even one counts. -/
structure Nearest (m : Nat) (q : Int) (v : ℚ) : Prop where
  low : (4 * m - gapBelow m q : ℚ) * 2 ^ (q - 2) ≤ v
  high : v ≤ (4 * m + 2 : ℚ) * 2 ^ (q - 2)
  even : (4 * m - gapBelow m q : ℚ) * 2 ^ (q - 2) = v ∨ v = (4 * m + 2 : ℚ) * 2 ^ (q - 2) →
    m % 2 = 0

section Unique
variable {m n : Nat} {q p : Int} {v w : ℚ}

theorem gapBelow_le (m : Nat) (q : Int) : gapBelow m q ≤ 2 := by
  unfold gapBelow
  split <;> decide

theorem one_le_gapBelow (m : Nat) (q : Int) : 1 ≤ gapBelow m q := by
  unfold gapBelow
  split <;> decide

theorem gapBelow_eq_two (hm : Canonical m q) (h : m < n) : gapBelow n q = 2 := by
  unfold gapBelow
  split
  case isTrue least =>
      have := hm.full
      omega
  case isFalse => rfl

/-- Halfway down from the least significand with all its bits is the end of the exponent below. -/
theorem le_sub_gapBelow (full : 2 ^ 52 ≤ n) (other : q ≠ -1074) :
    (2 ^ 54 - 1 : ℚ) ≤ 4 * n - gapBelow n q := by
  unfold gapBelow
  split
  case isTrue least =>
      rw [least.1]
      norm_num
  case isFalse _ =>
      have above : (2 ^ 52 + 1 : ℚ) ≤ n := by
        have : 2 ^ 52 + 1 ≤ n := by omega
        exact_mod_cast this
      push_cast
      linarith

/-- Of two fractions with one exponent the larger is not nearest to the lesser number. -/
theorem Nearest.not_lt (hm : Canonical m q) (h : Nearest m q v) (h' : Nearest n q w)
    (le : w ≤ v) : ¬ m < n := by
  intro less
  have unit : (0 : ℚ) < 2 ^ (q - 2) := by positivity
  have low := h'.low.trans le
  have high := h.high
  rw [gapBelow_eq_two hm less] at low
  have step : (m : ℚ) + 1 ≤ n := by exact_mod_cast less
  have between : (4 * m + 2 : ℚ) * 2 ^ (q - 2) ≤ (4 * n - (2 : Nat) : ℚ) * 2 ^ (q - 2) := by
    apply mul_le_mul_of_nonneg_right _ unit.le
    push_cast
    linarith
  have atHigh : v = (4 * m + 2 : ℚ) * 2 ^ (q - 2) := le_antisymm high (between.trans low)
  have atLow : (4 * n - (2 : Nat) : ℚ) * 2 ^ (q - 2) = v :=
    le_antisymm low (high.trans between)
  have same : (4 * m + 2 : ℚ) = 4 * n - (2 : Nat) :=
    mul_right_cancel₀ unit.ne' (atHigh.symm.trans atLow.symm)
  have next : n = m + 1 := by
    push_cast at same
    have : (n : ℚ) = m + 1 := by linarith
    exact_mod_cast this
  have even := h.even (.inr atHigh)
  have same : w = v := le_antisymm le (atLow ▸ gapBelow_eq_two hm less ▸ h'.low)
  have even' := h'.even (.inl (by rw [gapBelow_eq_two hm less, same]; exact atLow))
  omega

/-- A fraction with a larger exponent is not nearest to the lesser number. -/
theorem Nearest.not_exponent_lt (hm : Canonical m q) (hn : Canonical n p) (h : Nearest m q v)
    (h' : Nearest n p w) (le : w ≤ v) : ¬ q < p := by
  intro less
  have unit : (0 : ℚ) < 2 ^ (q - 2) := by positivity
  have full : 2 ^ 52 ≤ n := by
    have := hn.full
    have := hm.least
    omega
  have least := le_sub_gapBelow full (show p ≠ -1074 by have := hm.least; omega)
  have double : (2 : ℚ) * 2 ^ (q - 2) ≤ 2 ^ (p - 2) := by
    rw [← zpow_one_add₀ two_ne_zero]
    exact zpow_le_zpow_right₀ one_le_two (by omega)
  have largest : (m : ℚ) + 1 ≤ 2 ^ 53 := by exact_mod_cast hm.small
  -- the halfway point above the largest significand belongs to the next exponent
  have between : (2 ^ 55 - 2 : ℚ) * 2 ^ (q - 2) ≤ v :=
    calc (2 ^ 55 - 2 : ℚ) * 2 ^ (q - 2) = (2 ^ 54 - 1) * (2 * 2 ^ (q - 2)) := by ring
      _ ≤ (4 * n - gapBelow n p) * 2 ^ (p - 2) :=
        mul_le_mul least double (by positivity) (le_trans (by norm_num) least)
      _ ≤ v := h'.low.trans le
  have below : (2 ^ 55 - 2 : ℚ) ≤ 4 * m + 2 :=
    le_of_mul_le_mul_right (between.trans h.high) unit
  have top : m + 1 = 2 ^ 53 := by
    have : (2 ^ 53 : ℚ) ≤ m + 1 := by linarith
    have := le_antisymm largest this
    exact_mod_cast this
  have even := h.even (.inr (le_antisymm h.high (le_trans (le_of_eq (by
    have : (m : ℚ) = 2 ^ 53 - 1 := by
      have : ((m + 1 : Nat) : ℚ) = 2 ^ 53 := by rw [top]; norm_num
      push_cast at this
      linarith
    rw [this]
    ring)) between)))
  omega

theorem Nearest.unique (hm : Canonical m q) (hn : Canonical n p) (h : Nearest m q v)
    (h' : Nearest n p v) : m = n ∧ q = p := by
  have same : q = p := by
    have := h.not_exponent_lt hm hn h' le_rfl
    have := h'.not_exponent_lt hn hm h le_rfl
    omega
  subst same
  have := h.not_lt hm h' le_rfl
  have := h'.not_lt hn h le_rfl
  exact ⟨by omega, rfl⟩

/-- What is nearest to the greater number is not less. -/
theorem Nearest.mono (hm : Canonical m q) (hn : Canonical n p) (h : Nearest m q v)
    (h' : Nearest n p w) (le : v ≤ w) : (m * 2 ^ q : ℚ) ≤ n * 2 ^ p := by
  have order := h'.not_exponent_lt hn hm h le
  obtain less | rfl : q < p ∨ q = p := by omega
  · have full : 2 ^ 52 ≤ n := hn.full.resolve_right (by have := hm.least; omega)
    have full : (2 ^ 52 : ℚ) ≤ n := by exact_mod_cast full
    have small : (m : ℚ) ≤ 2 ^ 53 := by exact_mod_cast hm.small.le
    calc (m * 2 ^ q : ℚ) ≤ 2 ^ 53 * 2 ^ q := mul_le_mul_of_nonneg_right small (by positivity)
      _ = 2 ^ 52 * 2 ^ (q + 1) := by rw [zpow_add_one₀ two_ne_zero]; ring
      _ ≤ n * 2 ^ p :=
        mul_le_mul full (zpow_le_zpow_right₀ one_le_two (by omega)) (by positivity) (by positivity)
  · have most : m ≤ n := Nat.not_lt.1 (h'.not_lt hn h le)
    exact mul_le_mul_of_nonneg_right (by exact_mod_cast most) (by positivity)

end Unique

section Kept
variable {m : Nat} {acc : Accuracy} {rest x : ℚ} {em : ExtendedMantissa}

/-- What is kept of a number beside its whole part. -/
def Tells : Accuracy → ℚ → Prop
  | .exact, rest => rest = 0
  | .inexact .lt, rest => 0 < rest ∧ rest < 1 / 2
  | .inexact .eq, rest => rest = 1 / 2
  | .inexact .gt, rest => 1 / 2 < rest ∧ rest < 1

theorem Tells.nonneg (h : Tells acc rest) : 0 ≤ rest := by
  cases acc with
  | exact => exact h.ge
  | inexact o => cases o <;> simp only [Tells] at h <;> linarith

theorem Tells.lt_one (h : Tells acc rest) : rest < 1 := by
  cases acc with
  | exact =>
      rw [Tells] at h
      linarith
  | inexact o => cases o <;> simp only [Tells] at h <;> linarith

/-- An extended mantissa stands for numbers with its whole part. -/
def Stands (em : ExtendedMantissa) (x : ℚ) : Prop := Tells em.accuracy (x - em.mantissa)

theorem accuracy_ofMantissaAndAccuracy (m : Nat) (acc : Accuracy) :
    (ExtendedMantissa.ofMantissaAndAccuracy m acc).accuracy = acc := by
  cases acc with
  | exact => rfl
  | inexact o => cases o <;> rfl

theorem mantissa_ofMantissaAndAccuracy (m : Nat) (acc : Accuracy) :
    (ExtendedMantissa.ofMantissaAndAccuracy m acc).mantissa = m := by
  cases acc with
  | exact => rfl
  | inexact o => cases o <;> rfl

theorem stands_ofMantissaAndAccuracy (h : Tells acc (x - m)) :
    Stands (ExtendedMantissa.ofMantissaAndAccuracy m acc) x := by
  rw [Stands, accuracy_ofMantissaAndAccuracy, mantissa_ofMantissaAndAccuracy]
  exact h

theorem Stands.shiftRightOne (h : Stands em x) : Stands em.shiftRightOne (x / 2) := by
  obtain ⟨m, round, sticky⟩ := em
  have parity : (m : ℚ) = 2 * (m / 2 : Nat) + (m % 2 : Nat) := by
    exact_mod_cast (Nat.div_add_mod m 2).symm
  obtain even | odd := Nat.mod_two_eq_zero_or_one m
  · rw [even] at parity
    cases round <;> cases sticky <;>
      simp_all [Stands, ExtendedMantissa.shiftRightOne, ExtendedMantissa.accuracy, Tells] <;>
      (try constructor) <;> linarith
  · rw [odd] at parity
    cases round <;> cases sticky <;>
      simp_all [Stands, ExtendedMantissa.shiftRightOne, ExtendedMantissa.accuracy, Tells] <;>
      (try constructor) <;> linarith

theorem Stands.shiftRight (h : Stands em x) (k : Nat) : Stands (em >>> k) (x / 2 ^ k) := by
  change Stands (Nat.repeat ExtendedMantissa.shiftRightOne k em) _
  induction k with
  | zero => simpa [Nat.repeat] using h
  | succ k ih =>
      rw [Nat.repeat, pow_succ, ← div_div]
      exact ih.shiftRightOne

theorem mantissa_shiftRight (em : ExtendedMantissa) (k : Nat) :
    (em >>> k).mantissa = em.mantissa / 2 ^ k := by
  change (Nat.repeat ExtendedMantissa.shiftRightOne k em).mantissa = _
  induction k with
  | zero => simp [Nat.repeat]
  | succ k ih =>
      rw [Nat.repeat, pow_succ, ← Nat.div_div_eq_div_mul, ← ih]
      rfl

/-- The whole number nearest to what an extended mantissa stands for. -/
structure Rounded (r : Nat) (x : ℚ) : Prop where
  low : (r : ℚ) - 1 / 2 ≤ x
  high : x ≤ r + 1 / 2
  even : (r : ℚ) - 1 / 2 = x ∨ x = r + 1 / 2 → r % 2 = 0

theorem Stands.mantissa_le (h : Stands em x) : (em.mantissa : ℚ) ≤ x := by
  have := Tells.nonneg h
  linarith

theorem Stands.lt_mantissa (h : Stands em x) : x < em.mantissa + 1 := by
  have := Tells.lt_one h
  linarith

theorem rounded_of_lt {r : Nat} (low : (r : ℚ) - 1 / 2 < x) (high : x < r + 1 / 2) :
    Rounded r x where
  low := low.le
  high := high.le
  even tie := tie.elim (fun h => absurd h low.ne) (fun h => absurd h high.ne)

theorem Stands.rounded (h : Stands em x) : Rounded em.roundedMantissa x := by
  rw [Stands] at h
  rw [ExtendedMantissa.roundedMantissa]
  cases acc : em.accuracy with
  | exact =>
      rw [acc, Tells] at h
      apply rounded_of_lt <;> simp only [Accuracy.roundToNearestEven] <;> linarith
  | inexact o =>
      rw [acc] at h
      cases o with
      | lt =>
          simp only [Tells] at h
          apply rounded_of_lt <;> simp only [Accuracy.roundToNearestEven] <;> linarith
      | gt =>
          simp only [Tells] at h
          apply rounded_of_lt <;> push_cast [Accuracy.roundToNearestEven] <;> linarith
      | eq =>
          simp only [Tells] at h
          simp only [Accuracy.roundToNearestEven]
          obtain even | odd := Nat.mod_two_eq_zero_or_one em.mantissa
          · rw [even, Nat.add_zero]
            exact ⟨by linarith, by linarith, fun _ => even⟩
          · rw [odd]
            refine ⟨?_, ?_, fun _ => by omega⟩ <;> push_cast <;> linarith

theorem Stands.roundedMantissa_bounds (h : Stands em x) :
    em.mantissa ≤ em.roundedMantissa ∧ em.roundedMantissa ≤ em.mantissa + 1 := by
  have rounded := h.rounded
  have floor := h.mantissa_le
  have ceiling := h.lt_mantissa
  constructor
  · have : (em.mantissa : ℚ) < em.roundedMantissa + 1 := by linarith [rounded.high]
    exact Nat.lt_succ_iff.1 (by exact_mod_cast this)
  · have : (em.roundedMantissa : ℚ) < em.mantissa + 2 := by linarith [rounded.low]
    exact Nat.lt_succ_iff.1 (by exact_mod_cast this)

end Kept

section Round
variable {m r : Nat} {e q : Int} {acc : Accuracy} {v x : ℚ}

theorem targetExponent_eq (m : Nat) (e : Int) :
    Format.binary64.targetExponent (totalExponent m e) = max (m.log2 + e - 52) (-1074) := by
  simp only [Format.targetExponent, totalExponent, Format.mantissaBits, Format.minExponent]
  norm_num
  omega

/-- A significand and an exponent as a float, a zero included. -/
def ofSignificand (sign : Sign) (m : Nat) (q : Int) : UnpackedFloat :=
  if h : m = 0 then .zero sign else .finite sign m q (Nat.pos_of_ne_zero h)

theorem shiftToTargetExponent_exact (h : Canonical m q) :
    shiftToTargetExponent .binary64 m q .exact = (⟨m, false, false⟩, q) := by
  have log : m.log2 ≤ 52 := by
    obtain rfl | positive := Nat.eq_zero_or_pos m
    · decide
    · have := (Nat.log2_lt positive.ne').2 h.small
      omega
  have stay : (Format.binary64.targetExponent (totalExponent m q) - q).toNat = 0 := by
    rw [targetExponent_eq]
    have := h.least
    omega
  simp only [shiftToTargetExponent, shiftToExponent, stay]
  simp [ExtendedMantissa.ofMantissaAndAccuracy, HShiftRight.hShiftRight, Nat.repeat]

theorem shiftToTargetExponent_carry (least : -1074 ≤ q) :
    shiftToTargetExponent .binary64 (2 ^ 53) q .exact = (⟨2 ^ 52, false, false⟩, q + 1) := by
  have one : (Format.binary64.targetExponent (totalExponent (2 ^ 53) q) - q).toNat = 1 := by
    rw [targetExponent_eq, Nat.log2_two_pow]
    omega
  simp only [shiftToTargetExponent, shiftToExponent, one]
  rfl

/-- The nearest whole number of units, with the exponent of the unit, is nearest. -/
theorem Rounded.nearest (h : Rounded r x) (above : r = 2 ^ 52 → q ≠ -1074 → (r : ℚ) - 1 / 4 ≤ x) :
    Nearest r q (x * 2 ^ q) := by
  have unit : (0 : ℚ) < 2 ^ (q - 2) := by positivity
  have split : (2 : ℚ) ^ q = 4 * 2 ^ (q - 2) := by
    rw [show q = 2 + (q - 2) by ring, zpow_add₀ two_ne_zero]
    norm_num
  have low := h.low
  have high := h.high
  rw [split, show x * (4 * 2 ^ (q - 2)) = (4 * x) * 2 ^ (q - 2) by ring]
  refine ⟨?_, mul_le_mul_of_nonneg_right (by linarith) unit.le, ?_⟩
  · apply mul_le_mul_of_nonneg_right _ unit.le
    unfold gapBelow
    split
    case isTrue least =>
        have := above least.1 least.2
        push_cast
        linarith
    case isFalse other =>
        push_cast
        linarith
  · rw [mul_left_inj' unit.ne', mul_left_inj' unit.ne']
    intro tie
    unfold gapBelow at tie
    split at tie
    case isTrue least =>
        rw [least.1]
        decide
    case isFalse other =>
        apply h.even
        push_cast at tie
        obtain tie | tie := tie
        · exact .inl (by linarith)
        · exact .inr (by linarith)

/-- Shifted to its exponent a mantissa has the bits of a significand, and fewer only if the
exponent is the least one. -/
theorem shifted_bounds {t : Int} {k : Nat} (target : t = max (m.log2 + e - 52) (-1074))
    (shift : t = e + k) : m / 2 ^ k < 2 ^ 53 ∧ (2 ^ 52 ≤ m / 2 ^ k ∨ t = -1074) := by
  constructor
  · rw [Nat.div_lt_iff_lt_mul (by positivity), ← pow_add]
    exact Nat.lt_log2_self.trans_le (Nat.pow_le_pow_right (by decide) (by omega))
  · by_cases least : t = -1074
    · exact .inr least
    · refine .inl ?_
      rw [Nat.le_div_iff_mul_le (by positivity), ← pow_add]
      have positive : m ≠ 0 := by
        rintro rfl
        simp at target
        omega
      refine le_trans (Nat.pow_le_pow_right (by decide) ?_) (Nat.log2_self_le positive)
      omega

theorem exists_roundWithAccuracy (sign : Sign) (kept : Tells acc (x - m))
    (fine : e ≤ Format.binary64.targetExponent (totalExponent m e)) :
    ∃ r q, Canonical r q ∧ Nearest r q (x * 2 ^ e) ∧
      roundWithAccuracy .binary64 sign m e acc = ofSignificand sign r q := by
  let t := Format.binary64.targetExponent (totalExponent m e)
  let k := (t - e).toNat
  let em := ExtendedMantissa.ofMantissaAndAccuracy m acc >>> k
  have shifted : shiftToTargetExponent .binary64 m e acc = (em, t) := by
    simp only [shiftToTargetExponent, shiftToExponent, em, k, t, Prod.mk.injEq, true_and]
    omega
  have stands : Stands em (x / 2 ^ k) := (stands_ofMantissaAndAccuracy kept).shiftRight k
  have whole : em.mantissa = m / 2 ^ k := by
    rw [mantissa_shiftRight, mantissa_ofMantissaAndAccuracy]
  have shift : t = e + k := by omega
  have value : x * 2 ^ e = x / 2 ^ k * 2 ^ t := by
    rw [shift, zpow_add₀ two_ne_zero, zpow_natCast]
    field_simp
  have target : t = max (m.log2 + e - 52) (-1074) := targetExponent_eq m e
  obtain ⟨small, full⟩ := shifted_bounds target shift
  rw [← whole] at small full
  have rounded := stands.rounded
  have floor := stands.mantissa_le
  have ceiling := stands.lt_mantissa
  obtain ⟨low, high⟩ := stands.roundedMantissa_bounds
  set r := em.roundedMantissa with hr
  by_cases fits : r < 2 ^ 53
  · have canonical : Canonical r t := ⟨fits, by omega, by omega⟩
    refine ⟨r, t, canonical, ?_, ?_⟩
    · rw [value]
      refine rounded.nearest fun least other => ?_
      have : (r : ℚ) ≤ em.mantissa := by
        have : r ≤ em.mantissa := by omega
        exact_mod_cast this
      linarith
    · simp only [roundWithAccuracy, shifted, ← hr, shiftToTargetExponent_exact canonical]
      rfl
  · have full : r = 2 ^ 53 := by omega
    have largest : (em.mantissa : ℚ) + 1 ≤ 2 ^ 53 := by exact_mod_cast small
    have low : (2 ^ 53 : ℚ) - 1 / 2 ≤ x / 2 ^ k := by
      have := rounded.low
      rw [full] at this
      push_cast at this
      exact this
    refine ⟨2 ^ 52, t + 1, ⟨by decide, by omega, .inl le_rfl⟩, ?_, ?_⟩
    · rw [value, show x / 2 ^ k * 2 ^ t = x / 2 ^ k / 2 * 2 ^ (t + 1) by
        rw [zpow_add_one₀ two_ne_zero]; ring]
      refine Rounded.nearest (rounded_of_lt ?_ ?_) fun _ _ => ?_ <;> push_cast <;> linarith
    · simp only [roundWithAccuracy, shifted, ← hr, full,
        shiftToTargetExponent_carry (show -1074 ≤ t by omega)]
      rfl

/-- Rounding gives the fraction that a number is nearest to. -/
theorem roundWithAccuracy_eq (sign : Sign) (kept : Tells acc (v / 2 ^ e - m))
    (fine : e ≤ Format.binary64.targetExponent (totalExponent m e)) (canonical : Canonical r q)
    (nearest : Nearest r q v) :
    roundWithAccuracy .binary64 sign m e acc = ofSignificand sign r q := by
  obtain ⟨n, p, canonical', nearest', round⟩ := exists_roundWithAccuracy sign kept fine
  rw [div_mul_cancel₀ v (zpow_ne_zero e two_ne_zero)] at nearest'
  obtain ⟨rfl, rfl⟩ := nearest'.unique canonical' canonical nearest
  exact round

end Round
end DependencyAudit
