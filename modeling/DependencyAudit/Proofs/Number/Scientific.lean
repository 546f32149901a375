import DependencyAudit.Proofs.Number.Float

/-!
Floats from decimals. Products and quotients of significands are rounded once, so a decimal
is read as the float that it is nearest to, whichever way is taken to it.
-/
namespace DependencyAudit
open Float.Model Float.Model.UnpackedFloat

section Operations
variable {m n r : Nat} {e p q : Int} {s t : Sign}

theorem quotient_eq_add (num : Nat) {den : Nat} (positive : 0 < den) :
    (num / den : ℚ) = (num / den : Nat) + (num % den : Nat) / den := by
  have unit : (den : ℚ) ≠ 0 := by exact_mod_cast positive.ne'
  rw [div_eq_iff unit, add_mul, div_mul_cancel₀ _ unit, mul_comm]
  exact_mod_cast (Nat.div_add_mod num den).symm

theorem tells_fraction {num den : Nat} (less : num < den) :
    Tells (accuracyOfFraction num den) (num / den) := by
  have positive : (0 : ℚ) < den := by
    exact_mod_cast Nat.zero_lt_of_lt less
  unfold accuracyOfFraction
  split
  case isTrue zero => simp [Tells, zero]
  case isFalse nonzero =>
      have num_pos : (0 : ℚ) < num := by exact_mod_cast Nat.pos_of_ne_zero nonzero
      have less : (num : ℚ) < den := by exact_mod_cast less
      cases order : compare (2 * num) den with
      | lt =>
          have half : (2 * num : ℚ) < den := by exact_mod_cast Nat.compare_eq_lt.1 order
          refine ⟨by positivity, ?_⟩
          rw [div_lt_iff₀ positive]
          linarith
      | eq =>
          have half : (2 * num : ℚ) = den := by exact_mod_cast Nat.compare_eq_eq.1 order
          rw [Tells, div_eq_iff positive.ne']
          linarith
      | gt =>
          have half : (den : ℚ) < 2 * num := by exact_mod_cast Nat.compare_eq_gt.1 order
          refine ⟨?_, (div_lt_one positive).2 less⟩
          rw [lt_div_iff₀ positive]
          linarith

theorem mul_finite (hm : 0 < m) (hn : 0 < n) (full : 2 ^ 52 ≤ m * n) (canonical : Canonical r q)
    (nearest : Nearest r q ((m * 2 ^ e) * (n * 2 ^ p))) :
    UnpackedFloat.mul .binary64 (.finite s m e hm) (.finite t n p hn) =
      ofSignificand (s * t) r q := by
  apply roundWithAccuracy_eq _ _ _ canonical nearest
  · rw [Tells, zpow_add₀ two_ne_zero]
    push_cast
    field_simp
    ring
  · rw [targetExponent_eq]
    have := (Nat.le_log2 (by positivity)).2 full
    omega

theorem div_finite (hm : 0 < m) (hn : 0 < n) (canonical : Canonical r q)
    (nearest : Nearest r q ((m * 2 ^ e) / (n * 2 ^ p))) :
    UnpackedFloat.div .binary64 (.finite s m e hm) (.finite t n p hn) =
      ofSignificand (s / t) r q := by
  simp only [UnpackedFloat.div, divCore]
  set target := min (e - p)
    (Format.targetExponent .binary64 (totalExponent m e - totalExponent n p)) with htarget
  set k := (e - p - target).toNat with hk
  have shift : e = p + target + k := by
    have : target ≤ e - p := min_le_left _ _
    omega
  apply roundWithAccuracy_eq _ _ _ canonical nearest
  · have value : (m * 2 ^ e : ℚ) / (n * 2 ^ p) / 2 ^ target = (m <<< k : Nat) / n := by
      rw [shift, zpow_add₀ two_ne_zero, zpow_add₀ two_ne_zero, zpow_natCast, Nat.shiftLeft_eq]
      push_cast
      field_simp
    rw [value, quotient_eq_add _ hn, add_sub_cancel_left]
    exact tells_fraction (Nat.mod_lt _ hn)
  · rw [targetExponent_eq]
    by_cases least : target ≤ -1074
    · omega
    · -- the quotient has all its bits, since the dividend was shifted far enough
      have far : (n.log2 : Int) + 53 ≤ m.log2 + k := by
        have : target ≤ max (m.log2 + 1 + e - (n.log2 + 1 + p) - 53) (-1074) := min_le_right _ _
        omega
      have full : 2 ^ 52 ≤ m <<< k / n := by
        rw [Nat.le_div_iff_mul_le hn, Nat.shiftLeft_eq]
        calc 2 ^ 52 * n ≤ 2 ^ 52 * 2 ^ (n.log2 + 1) :=
              Nat.mul_le_mul_left _ Nat.lt_log2_self.le
          _ = 2 ^ (n.log2 + 53) := by rw [← pow_add]; ring_nf
          _ ≤ 2 ^ (m.log2 + k) := Nat.pow_le_pow_right (by decide) (by omega)
          _ ≤ m * 2 ^ k := by
            rw [pow_add]
            exact Nat.mul_le_mul_right _ (Nat.log2_self_le hm.ne')
      have := (Nat.le_log2 (by omega)).2 full
      omega

theorem round_finite (hm : 0 < m) (canonical : Canonical r q) (nearest : Nearest r q (m * 2 ^ e)) :
    UnpackedFloat.round .binary64 s m e = ofSignificand s r q := by
  simp only [UnpackedFloat.round, decreaseExponent]
  set k := (e - Format.targetExponent .binary64 (totalExponent m e)).toNat with hk
  rw [targetExponent_eq] at hk
  apply roundWithAccuracy_eq _ _ _ canonical nearest
  · rw [Tells, zpow_sub₀ two_ne_zero, zpow_natCast, Nat.shiftLeft_eq]
    push_cast
    field_simp
    ring
  · have full : 2 ^ (m.log2 + k) ≤ m <<< k := by
      rw [Nat.shiftLeft_eq, pow_add]
      exact Nat.mul_le_mul_right _ (Nat.log2_self_le hm.ne')
    have shift_pos : 0 < m <<< k := Nat.lt_of_lt_of_le (by positivity) full
    have := (Nat.le_log2 shift_pos.ne').2 full
    rw [targetExponent_eq]
    omega

end Operations

section Exact
variable {m r : Nat} {q : Int}

/-- A fraction is nearest to itself. -/
theorem nearest_self (m : Nat) (q : Int) : Nearest m q (m * 2 ^ q) := by
  have unit : (0 : ℚ) < 2 ^ (q - 2) := by positivity
  have split : (m * 2 ^ q : ℚ) = 4 * m * 2 ^ (q - 2) := by
    rw [show q = 2 + (q - 2) by ring, zpow_add₀ two_ne_zero]
    norm_num
    ring
  have gap : (1 : ℚ) ≤ gapBelow m q := by exact_mod_cast one_le_gapBelow m q
  rw [split]
  refine ⟨mul_le_mul_of_nonneg_right (by linarith) unit.le,
    mul_le_mul_of_nonneg_right (by linarith) unit.le, ?_⟩
  rw [mul_left_inj' unit.ne', mul_left_inj' unit.ne']
  rintro (tie | tie) <;> linarith

/-- A whole number below `2 ^ 53` is a float with all its bits. -/
theorem exists_floatOf_nat (positive : 0 < m) (small : m < 2 ^ 53) :
    ∃ r q, InRange r q ∧ 2 ^ 52 ≤ r ∧ (r * 2 ^ q : ℚ) = m ∧
      m.toUInt64.toFloat = floatOf false r q := by
  have log : m.log2 < 53 := (Nat.log2_lt positive.ne').2 small
  have full : 2 ^ 52 ≤ m * 2 ^ (52 - m.log2) := by
    calc 2 ^ 52 = 2 ^ m.log2 * 2 ^ (52 - m.log2) := by rw [← pow_add]; congr 1; omega
      _ ≤ m * 2 ^ (52 - m.log2) := Nat.mul_le_mul_right _ (Nat.log2_self_le positive.ne')
  have below : m * 2 ^ (52 - m.log2) < 2 ^ 53 := by
    calc m * 2 ^ (52 - m.log2) < 2 ^ (m.log2 + 1) * 2 ^ (52 - m.log2) :=
          Nat.mul_lt_mul_of_pos_right Nat.lt_log2_self (by positivity)
      _ = 2 ^ 53 := by rw [← pow_add]; congr 1; omega
  have value : ((m * 2 ^ (52 - m.log2) : Nat) * 2 ^ (m.log2 - 52 : Int) : ℚ) = m := by
    have : (m.log2 - 52 : Int) = -((52 - m.log2 : Nat) : Int) := by omega
    rw [this, zpow_neg, zpow_natCast]
    push_cast
    field_simp
  have range : InRange (m * 2 ^ (52 - m.log2)) (m.log2 - 52) :=
    ⟨⟨below, by omega, .inl full⟩, by omega⟩
  refine ⟨_, _, range, full, value, ?_⟩
  have toNat : m.toUInt64.toNat = m := by
    rw [Nat.toUInt64, UInt64.toNat_ofNat']
    exact Nat.mod_eq_of_lt (by omega)
  change Float.ofModel (Float.Model.pack (UnpackedFloat.ofInt .binary64 m.toUInt64.toNat)) = _
  rw [toNat, UnpackedFloat.ofInt, UnpackedFloat.normalize]
  have order : compare (m : Int) 0 = .gt := Int.compare_eq_gt.2 (by omega)
  have nearest : Nearest (m * 2 ^ (52 - m.log2)) (m.log2 - 52) (m * 2 ^ (0 : Int)) := by
    rw [zpow_zero, mul_one, ← value]
    exact nearest_self _ _
  simp only [order, Int.toNat_natCast, round_finite positive range.toCanonical nearest]
  rfl

/-- Whether parts are a power of ten, with all their bits. -/
def isPowerOfTen (n : Nat) : Parts → Bool
  | .finite false r q =>
    decide (Nat.pow 2 52 ≤ r ∧ r * Nat.pow 2 q.toNat = Nat.pow 10 n * Nat.pow 2 (-q).toNat)
  | _ => false

theorem zpow_eq_div {b : ℚ} (nonzero : b ≠ 0) (q : Int) :
    b ^ q = b ^ q.toNat / b ^ (-q).toNat := by
  rw [eq_div_iff (pow_ne_zero _ nonzero), ← zpow_natCast, ← zpow_natCast, ← zpow_add₀ nonzero]
  congr 1
  omega

theorem isPowerOfTen_table : ∀ n : Fin Float.exactlyRepresentablePowersOfTen.size,
    isPowerOfTen n (Parts.of Float.exactlyRepresentablePowersOfTen[n]) = true := by
  decide +kernel

/-- The powers of ten that are kept at hand are floats with all their bits. -/
theorem exists_floatOf_powerOfTen {n : Nat} (h : n < Float.exactlyRepresentablePowersOfTen.size) :
    ∃ r q, InRange r q ∧ 2 ^ 52 ≤ r ∧ (r * 2 ^ q : ℚ) = 10 ^ n ∧
      Float.exactlyRepresentablePowersOfTen[n] = floatOf false r q := by
  have power : isPowerOfTen n (Parts.of Float.exactlyRepresentablePowersOfTen[n]) = true :=
    isPowerOfTen_table ⟨n, h⟩
  unfold isPowerOfTen at power
  split at power
  case h_1 r q parts =>
      obtain ⟨full, value⟩ := of_decide_eq_true power
      obtain ⟨same, range⟩ := eq_floatOf parts
      refine ⟨r, q, range, full, ?_, same⟩
      rw [zpow_eq_div two_ne_zero, ← mul_div_assoc, div_eq_iff (by positivity)]
      exact_mod_cast value
  case h_2 => cases power

end Exact

section Decimal
variable {m n r digits : Nat} {e p q tens : Int} {v : ℚ}

theorem mul_floatOf (hm : InRange m e) (hn : InRange n p) (full : 2 ^ 52 ≤ m ∧ 2 ^ 52 ≤ n)
    (canonical : Canonical r q) (nearest : Nearest r q ((m * 2 ^ e) * (n * 2 ^ p))) :
    floatOf false m e * floatOf false n p = floatOf false r q := by
  have whole : 2 ^ 52 ≤ m * n := full.1.trans (Nat.le_mul_of_pos_right m (by omega))
  change Float.ofModel (Float.Model.pack (UnpackedFloat.mul .binary64
    (floatOf false m e).toModel.unpack (floatOf false n p).toModel.unpack)) = _
  rw [unpack_floatOf hm, unpack_floatOf hn, ofSignificand_of_pos _ (by omega),
    ofSignificand_of_pos _ (by omega), mul_finite _ _ whole canonical nearest]
  rfl

theorem div_floatOf (hm : InRange m e) (hn : InRange n p) (full : 2 ^ 52 ≤ m ∧ 2 ^ 52 ≤ n)
    (canonical : Canonical r q) (nearest : Nearest r q ((m * 2 ^ e) / (n * 2 ^ p))) :
    floatOf false m e / floatOf false n p = floatOf false r q := by
  change Float.ofModel (Float.Model.pack (UnpackedFloat.div .binary64
    (floatOf false m e).toModel.unpack (floatOf false n p).toModel.unpack)) = _
  rw [unpack_floatOf hm, unpack_floatOf hn, ofSignificand_of_pos _ (by omega),
    ofSignificand_of_pos _ (by omega), div_finite _ _ canonical nearest]
  rfl

/-- What is nearest to a float that is not zero is neither very large nor very small. -/
theorem Nearest.bounds (h : Nearest r q v) (range : InRange r q) (positive : 0 < r) :
    (2 : ℚ) ^ (-1075 : Int) ≤ v ∧ v < 2 ^ (1024 : Int) := by
  have one_le : (1 : ℚ) ≤ r := by exact_mod_cast positive
  have gap : (gapBelow r q : ℚ) ≤ 2 := by exact_mod_cast gapBelow_le r q
  have small : (r : ℚ) + 1 ≤ 2 ^ 53 := by exact_mod_cast range.small
  constructor
  · calc (2 : ℚ) ^ (-1075 : Int) = 2 * 2 ^ (-1076 : Int) := by
          rw [← zpow_one_add₀ two_ne_zero]; rfl
      _ ≤ (4 * r - gapBelow r q) * 2 ^ (q - 2) := by
        have := range.least
        exact mul_le_mul (by linarith) (zpow_le_zpow_right₀ one_le_two (by omega))
          (by positivity) (by linarith)
      _ ≤ v := h.low
  · calc v ≤ (4 * r + 2) * 2 ^ (q - 2) := h.high
      _ < 2 ^ (55 : Int) * 2 ^ (969 : Int) := by
        have := range.most
        refine mul_lt_mul (lt_of_le_of_lt ?_ (show (2 ^ 55 - 2 : ℚ) < _ by norm_num))
          (zpow_le_zpow_right₀ one_le_two (by omega)) (by positivity) (by positivity)
        linarith
      _ = 2 ^ (1024 : Int) := by rw [← zpow_add₀ two_ne_zero]; rfl

theorem two_zpow_le_ten_zpow {n : Int} (h : 0 ≤ n) : (2 : ℚ) ^ (3 * n) ≤ 10 ^ n := by
  rw [zpow_mul]
  exact zpow_le_zpow_left₀ h (by norm_num) (by norm_num)

theorem ten_zpow_le_two_zpow {n : Int} (h : n ≤ 0) : (10 : ℚ) ^ n ≤ 2 ^ (3 * n) := by
  have := two_zpow_le_ten_zpow (Int.neg_nonneg.2 h)
  rw [mul_neg, zpow_neg, zpow_neg] at this
  exact (inv_le_inv₀ (by positivity) (by positivity)).1 this

/-- The limits that settle a decimal by its exponent alone are far outside the range. -/
theorem Nearest.tens_bounds (h : Nearest r q (digits * 10 ^ tens)) (positive : 0 < digits)
    (range : InRange r q) (r_pos : 0 < r) :
    -(2 ^ 11 + (digits.log2 : Int)) ≤ tens ∧ tens ≤ 2 ^ 11 := by
  obtain ⟨low, high⟩ := h.bounds range r_pos
  have least : (1 : ℚ) ≤ digits := by exact_mod_cast positive
  have log : (digits : ℚ) < 2 ^ ((digits.log2 + 1 : Nat) : Int) := by
    rw [zpow_natCast]
    exact_mod_cast Nat.lt_log2_self
  constructor
  · by_contra tiny
    have : digits * (10 : ℚ) ^ tens < 2 ^ (-1075 : Int) :=
      calc digits * (10 : ℚ) ^ tens < 2 ^ ((digits.log2 + 1 : Nat) : Int) * 10 ^ tens :=
            mul_lt_mul_of_pos_right log (by positivity)
        _ ≤ 2 ^ ((digits.log2 + 1 : Nat) : Int) * 2 ^ (3 * tens) :=
          mul_le_mul_of_nonneg_left (ten_zpow_le_two_zpow (by omega)) (by positivity)
        _ = 2 ^ (((digits.log2 + 1 : Nat) : Int) + 3 * tens) := (zpow_add₀ two_ne_zero _ _).symm
        _ ≤ 2 ^ (-1075 : Int) := zpow_le_zpow_right₀ one_le_two (by push_cast; omega)
    linarith
  · by_contra huge
    have : (2 : ℚ) ^ (1024 : Int) ≤ digits * 10 ^ tens :=
      calc (2 : ℚ) ^ (1024 : Int) ≤ 2 ^ (3 * tens) := zpow_le_zpow_right₀ one_le_two (by omega)
        _ ≤ 10 ^ tens := two_zpow_le_ten_zpow (by omega)
        _ ≤ digits * 10 ^ tens := le_mul_of_one_le_left (by positivity) least
    linarith

/-- The way without a table: one product or quotient of whole numbers. -/
theorem unpacked_ofScientific (positive : 0 < digits) (canonical : Canonical r q)
    (visible : -(2 ^ 11 + (digits.log2 : Int)) ≤ tens) (moderate : tens ≤ 2 ^ 11)
    (nearest : Nearest r q (digits * 10 ^ tens)) :
    UnpackedFloat.ofScientific .binary64 digits tens = ofSignificand .positive r q := by
  rw [UnpackedFloat.ofScientific, dif_neg positive.ne', if_neg (not_lt.2 moderate),
    if_neg (not_lt.2 visible)]
  by_cases whole : 0 ≤ tens
  · rw [if_pos whole]
    refine mul_finite _ _ ?_ canonical ?_
    · change 2 ^ 52 ≤ digits <<< 53 * 10 ^ tens.toNat
      rw [Nat.shiftLeft_eq]
      have : 1 ≤ 10 ^ tens.toNat := Nat.one_le_pow _ _ (by decide)
      nlinarith
    · convert nearest using 1
      rw [Nat.shiftLeft_eq]
      have : (10 : ℚ) ^ tens = 10 ^ tens.toNat := by
        rw [← zpow_natCast, Int.toNat_of_nonneg whole]
      rw [this]
      push_cast
      change (digits * 2 ^ 53 * 2 ^ (-53 : Int) * (10 ^ tens.toNat * 2 ^ (0 : Int)) : ℚ) = _
      norm_num
      ring
  · rw [if_neg whole]
    refine div_finite _ _ canonical ?_
    convert nearest using 1
    have : (10 : ℚ) ^ tens = (10 ^ (-tens).toNat)⁻¹ := by
      rw [← zpow_natCast, Int.toNat_of_nonneg (by omega), zpow_neg, inv_inv]
    rw [this]
    push_cast
    norm_num
    rfl

/-- A decimal is read as the float that it is nearest to. -/
theorem ofScientific_eq (positive : 0 < digits) (range : InRange r q) (r_pos : 0 < r)
    (nearest : Nearest r q (digits * 10 ^ tens)) :
    Float.ofScientific digits (decide (tens < 0)) tens.natAbs = floatOf false r q := by
  unfold Float.ofScientific
  split
  case isTrue small =>
      obtain ⟨m, e, hm, fullm, valuem, samem⟩ := exists_floatOf_nat positive small.1
      obtain ⟨n, p, hn, fulln, valuen, samen⟩ :=
        exists_floatOf_powerOfTen (show tens.natAbs < _ from Nat.lt_succ_of_le small.2)
      dsimp only
      rw [samem, samen]
      by_cases below : tens < 0
      · rw [if_pos (decide_eq_true below)]
        refine div_floatOf hm hn ⟨fullm, fulln⟩ range.toCanonical ?_
        convert nearest using 1
        have power : (10 : ℚ) ^ tens = (10 ^ tens.natAbs)⁻¹ := by
          rw [← zpow_natCast, ← zpow_neg]
          congr 1
          omega
        rw [valuem, valuen, power, div_eq_mul_inv]
      · rw [if_neg (by simpa using below)]
        refine mul_floatOf hm hn ⟨fullm, fulln⟩ range.toCanonical ?_
        convert nearest using 1
        have power : (10 : ℚ) ^ tens = 10 ^ tens.natAbs := by
          rw [← zpow_natCast]
          congr 1
          omega
        rw [valuem, valuen, power]
  case isFalse large =>
      have same : (if decide (tens < 0) = true then Int.negOfNat tens.natAbs
          else Int.ofNat tens.natAbs) = tens := by
        by_cases below : tens < 0
        · rw [if_pos (decide_eq_true below), Int.negOfNat_eq, Int.ofNat_eq_natCast]
          omega
        · rw [if_neg (by simpa using below), Int.ofNat_eq_natCast]
          omega
      rw [same]
      change Float.ofModel (Float.Model.pack (UnpackedFloat.ofScientific .binary64 _ _)) = _
      obtain ⟨visible, moderate⟩ := nearest.tens_bounds positive range r_pos
      rw [unpacked_ofScientific positive range.toCanonical visible moderate nearest]
      rfl

theorem lt_ten_pow_length (n : Nat) : n < 10 ^ (Nat.toDigits 10 n).length :=
  (Nat.length_toDigits_le_iff (by decide) Nat.length_toDigits_pos).1 le_rfl

theorem ten_pow_length_le (positive : 0 < n) : 10 ^ ((Nat.toDigits 10 n).length - 1) ≤ n := by
  obtain one | more := Nat.eq_or_lt_of_le (Nat.length_toDigits_pos (b := 10) (n := n))
  · rw [← one]
    exact positive
  · by_contra less
    have := (Nat.length_toDigits_le_iff (by decide) (by omega)).2 (Nat.lt_of_not_le less)
    omega

/-- The limits that settle a decimal by its size alone are far outside the range. -/
theorem Nearest.size_bounds (h : Nearest r q (digits * 10 ^ tens)) (positive : 0 < digits)
    (range : InRange r q) (r_pos : 0 < r) :
    -400 ≤ (Nat.toDigits 10 digits).length + tens ∧
      (Nat.toDigits 10 digits).length + tens ≤ 400 := by
  obtain ⟨low, high⟩ := h.bounds range r_pos
  have length : 0 < (Nat.toDigits 10 digits).length := Nat.length_toDigits_pos
  set size := (Nat.toDigits 10 digits).length with hsize
  constructor
  · by_contra small
    have : digits * (10 : ℚ) ^ tens < 2 ^ (-1075 : Int) :=
      calc digits * (10 : ℚ) ^ tens < 10 ^ (size : Int) * 10 ^ tens := by
            refine mul_lt_mul_of_pos_right ?_ (by positivity)
            rw [zpow_natCast]
            exact_mod_cast lt_ten_pow_length digits
        _ = 10 ^ (size + tens : Int) := (zpow_add₀ (by norm_num) _ _).symm
        _ ≤ 2 ^ (3 * (size + tens) : Int) := ten_zpow_le_two_zpow (by omega)
        _ ≤ 2 ^ (-1075 : Int) := zpow_le_zpow_right₀ one_le_two (by omega)
    linarith
  · by_contra large
    have : (2 : ℚ) ^ (1024 : Int) ≤ digits * 10 ^ tens :=
      calc (2 : ℚ) ^ (1024 : Int) ≤ 2 ^ (3 * ((size - 1 : Nat) + tens) : Int) :=
            zpow_le_zpow_right₀ one_le_two (by omega)
        _ ≤ 10 ^ ((size - 1 : Nat) + tens : Int) := two_zpow_le_ten_zpow (by omega)
        _ = 10 ^ ((size - 1 : Nat) : Int) * 10 ^ tens := zpow_add₀ (by norm_num) _ _
        _ ≤ digits * 10 ^ tens := by
          refine mul_le_mul_of_nonneg_right ?_ (by positivity)
          rw [zpow_natCast]
          exact_mod_cast ten_pow_length_le positive
    linarith

/-- The float nearest to a decimal is found, whatever its sign. -/
theorem floatNearest_eq (negative : Bool) (positive : 0 < digits) (range : InRange r q)
    (r_pos : 0 < r) (nearest : Nearest r q (digits * 10 ^ tens)) :
    floatNearest negative digits tens = floatOf negative r q := by
  obtain ⟨small, large⟩ := nearest.size_bounds positive range r_pos
  have scientific := ofScientific_eq positive range r_pos nearest
  have magnitude : (if digits = 0 ∨ (Nat.toDigits 10 digits).length + tens < -400 then (0 : Float)
      else if 400 < (Nat.toDigits 10 digits).length + tens then 1 / 0
      else if tens < 0 then Float.ofScientific digits true tens.natAbs
      else Float.ofScientific digits false tens.natAbs) = floatOf false r q := by
    rw [if_neg (by omega), if_neg (by omega)]
    by_cases below : tens < 0
    · rw [if_pos below, ← scientific, decide_eq_true below]
    · rw [if_neg below, ← scientific, decide_eq_false below]
  rw [floatNearest, magnitude]
  cases negative with
  | false => rfl
  | true => exact neg_floatOf range

end Decimal
end DependencyAudit
