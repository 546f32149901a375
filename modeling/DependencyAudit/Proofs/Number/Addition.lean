import DependencyAudit.Proofs.Number.Whole

/-!
Addition of floats that are not negative. They stand for exact numbers, and their sum is what
the exact sum is rounded to: the float nearest to it, or infinity if it is too large for that.
-/
namespace DependencyAudit
open Float.Model Float.Model.UnpackedFloat

/-- The number that parts stand for, unless they are infinite or none. -/
def Parts.value? : Parts → Option ℚ
  | .finite negative m q => some ((if negative then -1 else 1) * (m * 2 ^ q))
  | _ => none

/-- The number that a float stands for. -/
def exactValue? (x : Float) : Option ℚ := (Parts.of x).value?

/-- A float that stands for a number that is not negative. -/
structure Amount (x : Float) (v : ℚ) : Prop where
  value : exactValue? x = some v
  nonneg : 0 ≤ v

section Amounts
variable {x y : Float} {a b v : ℚ} {m r : Nat} {q : Int}

theorem exactValue?_of_zero {s : Sign} (h : x.toModel.unpack = .zero s) :
    exactValue? x = some 0 := by
  rw [unpack_toModel] at h
  rw [exactValue?]
  match Parts.of x, h with
  | .finite negative m q, h =>
      have zero : m = 0 := by
        by_contra nonzero
        rw [ofParts, ofSignificand, dif_neg nonzero] at h
        cases h
      simp [Parts.value?, zero]

theorem amount_of_finite {positive : 0 < m}
    (h : x.toModel.unpack = .finite .positive m q positive) : Amount x (m * 2 ^ q) := by
  rw [unpack_toModel] at h
  refine ⟨?_, by positivity⟩
  rw [exactValue?]
  match Parts.of x, h with
  | .finite negative n p, h =>
      rw [ofParts, ofSignificand] at h
      split at h
      case isTrue => cases h
      case isFalse =>
        cases negative with
        | true => cases h
        | false =>
            cases h
            simp [Parts.value?]

theorem amount_floatOf (h : InRange m q) : Amount (floatOf false m q) (m * 2 ^ q) := by
  have unpacked : (floatOf false m q).toModel.unpack = ofSignificand .positive m q :=
    unpack_floatOf h
  obtain rfl | positive := Nat.eq_zero_or_pos m
  · rw [Nat.cast_zero, zero_mul]
    exact ⟨exactValue?_of_zero unpacked, le_rfl⟩
  · rw [ofSignificand_of_pos _ positive] at unpacked
    exact amount_of_finite unpacked

/-- An amount is some zero, or a positive float of its parts. -/
theorem Amount.cases (h : Amount x v) :
    (v = 0 ∧ ∃ s, x.toModel.unpack = .zero s) ∨
      ∃ m q, ∃ positive : 0 < m, InRange m q ∧ v = m * 2 ^ q ∧
        x.toModel.unpack = .finite .positive m q positive := by
  obtain ⟨value, nonneg⟩ := h
  rw [exactValue?] at value
  rw [unpack_toModel]
  cases parts : Parts.of x with
  | notANumber | infinite _ =>
      rw [parts] at value
      cases value
  | finite negative m q =>
      rw [parts] at value
      cases value
      obtain rfl | positive := Nat.eq_zero_or_pos m
      · exact .inl ⟨by simp, _, rfl⟩
      · have amount_pos : (0 : ℚ) < m * 2 ^ q := by positivity
        cases negative with
        | true =>
            rw [if_pos rfl] at nonneg
            linarith
        | false =>
            exact .inr ⟨m, q, positive, (eq_floatOf parts).2, by simp,
              ofSignificand_of_pos _ positive _⟩

theorem zero_le_ofParts (h : 0 ≤ x) :
    (UnpackedFloat.zero .positive).le (ofParts (Parts.of x)) = true := by
  rw [← unpack_toModel]
  exact of_decide_eq_true (p := ((0 : Float).toModel ≤ x.toModel)) h

theorem nonneg_of_zero_le (h : 0 ≤ x) (value : exactValue? x = some v) : 0 ≤ v := by
  rw [exactValue?] at value
  have order := zero_le_ofParts h
  cases parts : Parts.of x with
  | notANumber | infinite _ =>
      rw [parts] at value
      cases value
  | finite negative m q =>
      rw [parts] at value order
      cases value
      cases negative with
      | false =>
          rw [if_neg Bool.false_ne_true, one_mul]
          positivity
      | true =>
          -- a negative number is below every zero
          obtain rfl | positive := Nat.eq_zero_or_pos m
          · simp
          · rw [ofParts, ofSignificand_of_pos _ positive] at order
            cases order

end Amounts

section Step
variable {x y : Float} {a b v w t : ℚ} {m n r r' : Nat} {e p q q' : Int}

/-- A float is what a number is rounded to; far from zero that is infinity. -/
structure RoundsTo (v : ℚ) (x : Float) (r : Nat) (q : Int) : Prop where
  canonical : Canonical r q
  nearest : Nearest r q v
  within : q ≤ 971 → Amount x (r * 2 ^ q)
  beyond : 971 < q → x = infinityOf false

theorem pack_unpack (x : Float) : Float.ofModel (Float.Model.pack x.toModel.unpack) = x := by
  rw [unpack_toModel, ← eq_ofParts]

theorem roundsTo_self (h : Amount x v) : ∃ r q, RoundsTo v x r q := by
  obtain ⟨rfl, -⟩ | ⟨m, q, positive, range, rfl, -⟩ := h.cases
  · have zero := nearest_self 0 (-1074)
    rw [Nat.cast_zero, zero_mul] at zero
    refine ⟨0, -1074, ⟨by decide, le_rfl, .inr rfl⟩, zero, fun _ => ?_, fun beyond => ?_⟩
    · rwa [Nat.cast_zero, zero_mul]
    · exact absurd beyond (by decide)
  · exact ⟨m, q, range.toCanonical, nearest_self m q, fun _ => h,
      fun beyond => absurd range.most (by omega)⟩

theorem roundsTo_packed {s : Sign}
    (sum : x = Float.ofModel (Float.Model.pack (.zero s))) : ∃ r q, RoundsTo 0 x r q := by
  have zero : x.toModel.unpack = .zero s := by
    rw [sum]
    exact unpack_packedZero
  exact roundsTo_self ⟨exactValue?_of_zero zero, le_rfl⟩

/-- A number is rounded to the float of what it is nearest to. -/
theorem roundsTo_floatOf (canonical : Canonical r q) (nearest : Nearest r q v) :
    RoundsTo v (floatOf false r q) r q where
  canonical
  nearest
  within most := amount_floatOf ⟨canonical, most⟩
  beyond large := by
    have full := canonical.full.resolve_right (by omega)
    exact floatOf_eq_infinityOf (by omega) (by omega)

theorem aligned (m : Nat) {e f : Int} (le : f ≤ e) :
    ((m <<< (e - f).toNat : Nat) * 2 ^ f : ℚ) = m * 2 ^ e := by
  rw [Nat.shiftLeft_eq, Nat.cast_mul, Nat.cast_pow, Nat.cast_ofNat, mul_assoc, ← zpow_natCast,
    ← zpow_add₀ two_ne_zero]
  congr 2
  omega

/-- Positive floats are aligned at the lesser exponent, added there and rounded once. -/
theorem add_finite (hm : 0 < m) (hn : 0 < n) (canonical : Canonical r q)
    (nearest : Nearest r q (m * 2 ^ e + n * 2 ^ p)) :
    UnpackedFloat.add .binary64 (.finite .positive m e hm) (.finite .positive n p hn) =
      ofSignificand .positive r q := by
  set k := m <<< (e - min e p).toNat + n <<< (p - min e p).toNat with hk
  have positive : 0 < k := Nat.add_pos_left (by rw [Nat.shiftLeft_eq]; positivity) _
  have value : (m * 2 ^ e + n * 2 ^ p : ℚ) = k * 2 ^ min e p := by
    rw [hk, Nat.cast_add, add_mul, aligned m (min_le_left e p), aligned n (min_le_right e p)]
  have order : compare (k : Int) 0 = .gt := Int.compare_eq_gt.2 (by omega)
  have sum : Sign.positive.apply (m <<< (e - min e p).toNat : Nat) +
      Sign.positive.apply (n <<< (p - min e p).toNat : Nat) = (k : Int) :=
    (Int.natCast_add _ _).symm
  rw [value] at nearest
  simp only [UnpackedFloat.add, decreaseExponent, UnpackedFloat.normalize, sum, order,
    Int.toNat_natCast]
  exact round_finite positive canonical nearest

/-- A sum of two amounts is rounded once. -/
theorem Amount.add (hx : Amount x a) (hy : Amount y b) :
    ∃ r q, RoundsTo (a + b) (x + y) r q := by
  have unfolded : x + y = Float.ofModel (Float.Model.pack (UnpackedFloat.add .binary64
      x.toModel.unpack y.toModel.unpack)) := rfl
  obtain ⟨rfl, s, zeroForm⟩ | ⟨m, e, hm, -, rfl, finiteForm⟩ := hx.cases
  · obtain ⟨rfl, s', zeroForm'⟩ | ⟨n, p, hn, -, rfl, finiteForm'⟩ := hy.cases
    · obtain ⟨t, zero⟩ : ∃ t, UnpackedFloat.add .binary64 (.zero s) (.zero s') = .zero t := by
        simp only [UnpackedFloat.add]
        split <;> exact ⟨_, rfl⟩
      rw [zeroForm, zeroForm', zero] at unfolded
      rw [zero_add]
      exact roundsTo_packed unfolded
    · have sum : x + y = y := by
        have back := pack_unpack y
        rw [finiteForm'] at back
        rw [unfolded, zeroForm, finiteForm']
        exact back
      rw [zero_add, sum]
      exact roundsTo_self hy
  · obtain ⟨rfl, s', zeroForm'⟩ | ⟨n, p, hn, -, rfl, finiteForm'⟩ := hy.cases
    · have sum : x + y = x := by
        have back := pack_unpack x
        rw [finiteForm] at back
        rw [unfolded, zeroForm', finiteForm]
        exact back
      rw [add_zero, sum]
      exact roundsTo_self hx
    · obtain ⟨r, q, canonical, nearest⟩ :=
        exists_nearest (v := m * 2 ^ e + n * 2 ^ p) (by positivity)
      have sum : x + y = floatOf false r q := by
        rw [unfolded, finiteForm, finiteForm', add_finite hm hn canonical nearest]
        rfl
      exact ⟨r, q, sum ▸ roundsTo_floatOf canonical nearest⟩

/-- Amounts are whole multiples of the least float. -/
theorem Amount.exists_grid (h : Amount x v) : ∃ k : Nat, v = k * 2 ^ (-1074 : Int) := by
  obtain ⟨rfl, -⟩ | ⟨m, q, -, range, rfl, -⟩ := h.cases
  · exact ⟨0, by simp⟩
  · exact ⟨_, (aligned m range.least).symm⟩

theorem Amount.infinity_add (h : Amount x v) : infinityOf false + x = infinityOf false := by
  have unfolded : infinityOf false + x = Float.ofModel (Float.Model.pack (UnpackedFloat.add
      .binary64 (infinityOf false).toModel.unpack x.toModel.unpack)) := rfl
  have infinite : (infinityOf false).toModel.unpack = .infinity .positive := rfl
  rw [unfolded, infinite]
  obtain ⟨-, s, zeroForm⟩ | ⟨m, e, hm, -, -, finiteForm⟩ := h.cases
  · rw [zeroForm]
    rfl
  · rw [finiteForm]
    rfl

theorem Amount.add_infinity (h : Amount x v) : x + infinityOf false = infinityOf false := by
  have unfolded : x + infinityOf false = Float.ofModel (Float.Model.pack (UnpackedFloat.add
      .binary64 x.toModel.unpack (infinityOf false).toModel.unpack)) := rfl
  have infinite : (infinityOf false).toModel.unpack = .infinity .positive := rfl
  rw [unfolded, infinite]
  obtain ⟨-, s, zeroForm⟩ | ⟨m, e, hm, -, -, finiteForm⟩ := h.cases
  · rw [zeroForm]
    rfl
  · rw [finiteForm]
    rfl

end Step

end DependencyAudit
