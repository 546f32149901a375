import DependencyAudit.Proofs.Number.Shortest
import DependencyAudit.Proofs.Number.Sum

/-!
Finite floats. A sum of sizes is finite only if each of them is, as infinity is never left again;
sizes far enough below the end of the floats add up to finite sums however many they are, and what
is rounded to places stays finite.
-/
namespace DependencyAudit
open Float.Model Float.Model.UnpackedFloat

section Sorts
variable {x : Float} {negative : Bool} {m : Nat} {q : Int} {v : ℚ}

theorem sorts_ofSignificand (s : Sign) (m : Nat) (q : Int) :
    (ofSignificand s m q).isFinite = true ∧ (ofSignificand s m q).isNaN = false ∧
      (ofSignificand s m q).isInf = false := by
  rw [ofSignificand]
  split <;> exact ⟨rfl, rfl, rfl⟩

theorem isNaN_iff : x.isNaN = true ↔ Parts.of x = .notANumber := by
  change x.toModel.unpack.isNaN = true ↔ _
  rw [unpack_toModel]
  cases Parts.of x with
  | notANumber => exact iff_of_true rfl rfl
  | infinite negative => exact ⟨nofun, nofun⟩
  | finite negative m q =>
      exact ⟨fun h => (nomatch h.symm.trans (sorts_ofSignificand _ m q).2.1), nofun⟩

theorem isInf_iff : x.isInf = true ↔ ∃ negative, Parts.of x = .infinite negative := by
  change x.toModel.unpack.isInf = true ↔ _
  rw [unpack_toModel]
  cases Parts.of x with
  | notANumber => exact ⟨nofun, nofun⟩
  | infinite negative => exact iff_of_true rfl ⟨_, rfl⟩
  | finite negative m q =>
      exact ⟨fun h => (nomatch h.symm.trans (sorts_ofSignificand _ m q).2.2), nofun⟩

theorem isFinite_iff : x.isFinite = true ↔ ∃ negative m q, Parts.of x = .finite negative m q := by
  change x.toModel.unpack.isFinite = true ↔ _
  rw [unpack_toModel]
  cases Parts.of x with
  | notANumber => exact ⟨nofun, nofun⟩
  | infinite negative => exact ⟨nofun, nofun⟩
  | finite negative m q => exact iff_of_true (sorts_ofSignificand _ m q).1 ⟨_, _, _, rfl⟩

theorem isFinite_iff_not (x : Float) : x.isFinite = true ↔ ¬ x.isNaN = true ∧ ¬ x.isInf = true := by
  rw [isFinite_iff, isNaN_iff, isInf_iff]
  cases Parts.of x with
  | notANumber => exact ⟨nofun, fun h => absurd rfl h.1⟩
  | infinite negative => exact ⟨nofun, fun h => absurd ⟨negative, rfl⟩ h.2⟩
  | finite negative m q => exact iff_of_true ⟨_, _, _, rfl⟩ ⟨nofun, nofun⟩

theorem isFinite_iff_exists_value : x.isFinite = true ↔ ∃ v, exactValue? x = some v := by
  rw [isFinite_iff, exactValue?]
  cases Parts.of x with
  | notANumber => simp [Parts.value?]
  | infinite negative => simp [Parts.value?]
  | finite negative m q => exact iff_of_true ⟨_, _, _, rfl⟩ ⟨_, rfl⟩

theorem Amount.isFinite (h : Amount x v) : x.isFinite = true :=
  isFinite_iff_exists_value.2 ⟨v, h.value⟩

theorem isFinite_infinity : (infinityOf false).isFinite = false := by decide

theorem isFinite_floatOf (h : InRange m q) : (floatOf negative m q).isFinite = true := by
  change (floatOf negative m q).toModel.unpack.isFinite = true
  rw [unpack_floatOf h]
  exact (sorts_ofSignificand _ m q).1

/-- A size that is finite is an amount. -/
theorem IsSize.exists_amount (h : IsSize x) (finite : x.isFinite = true) : ∃ v, Amount x v := by
  obtain amount | rfl := h
  · exact amount
  · cases finite.symm.trans isFinite_infinity

theorem isNaN_of_isFinite (h : x.isFinite = true) : x.isNaN = false :=
  Bool.eq_false_of_not_eq_true ((isFinite_iff_not x).1 h).1

/-- Sizes are numbers or infinite. -/
theorem IsSize.isNaN (h : IsSize x) : x.isNaN = false := by
  obtain ⟨v, amount⟩ | rfl := h
  · exact isNaN_of_isFinite amount.isFinite
  · decide

end Sorts

section Sums
variable {x y : Float} {t v : ℚ} {xs : List Float}

theorem AtMost.isFinite (h : AtMost x y) (finite : y.isFinite = true) : x.isFinite = true := by
  obtain ⟨t, amount⟩ := h.right.exists_amount finite
  obtain ⟨w, amount', -⟩ := h.le t amount
  exact amount'.isFinite

theorem IsSize.isFinite_of_add (hx : IsSize x) (hy : IsSize y) (finite : (x + y).isFinite = true) :
    x.isFinite = true ∧ y.isFinite = true := by
  obtain ⟨v, amount⟩ | rfl := hx
  · obtain ⟨w, amount'⟩ | rfl := hy
    · exact ⟨amount.isFinite, amount'.isFinite⟩
    · rw [amount.add_infinity, isFinite_infinity] at finite
      cases finite
  · rw [hy.infinity_add, isFinite_infinity] at finite
    cases finite

/-- No sum comes back from infinity. -/
theorem isFinite_of_foldl (each : ∀ x ∈ xs, IsSize x) (hy : IsSize y)
    (finite : (xs.foldl (· + ·) y).isFinite = true) :
    y.isFinite = true ∧ ∀ x ∈ xs, x.isFinite = true := by
  induction xs generalizing y with
  | nil => exact ⟨finite, nofun⟩
  | cons x xs ih =>
      obtain ⟨first, others⟩ := List.forall_mem_cons.1 each
      obtain ⟨sum, rest⟩ := ih others (hy.add first) finite
      obtain ⟨before, here⟩ := hy.isFinite_of_add first sum
      exact ⟨before, List.forall_mem_cons.2 ⟨here, rest⟩⟩

/-- A size that is added to any float without leaving the range: it is less than half of the step
to the largest float. -/
def Modest (x : Float) : Prop := ∃ v, Amount x v ∧ v < 2 ^ (970 : Int)

theorem Amount.add_lt (h : Amount x v) (less : t < 2 ^ (970 : Int)) : v + t < floatEnd := by
  have largest : v ≤ (2 ^ 53 - 1) * 2 ^ (971 : Int) := by
    obtain ⟨rfl, -⟩ | ⟨m, q, -, range, rfl, -⟩ := h.cases
    · exact mul_nonneg (by norm_num) (by positivity)
    · have small : (m : ℚ) + 1 ≤ 2 ^ 53 := by exact_mod_cast range.small
      have step : (2 : ℚ) ^ q ≤ 2 ^ (971 : Int) := zpow_le_zpow_right₀ one_le_two range.most
      exact mul_le_mul (by linarith) step (by positivity) (by norm_num)
  have double : (2 : ℚ) ^ (971 : Int) = 2 * 2 ^ (970 : Int) := by
    rw [← zpow_one_add₀ two_ne_zero]
    norm_num
  rw [double] at largest
  rw [floatEnd_eq]
  generalize (2 : ℚ) ^ (970 : Int) = unit at largest less ⊢
  linarith

theorem Amount.add_modest (h : Amount x v) (hy : Modest y) : ∃ t, Amount (x + y) t := by
  obtain ⟨w, amount, less⟩ := hy
  obtain ⟨r, q, rounds⟩ := h.add amount
  exact ⟨_, rounds.within ((rounds.nearest.most_iff rounds.canonical).2 (h.add_lt less))⟩

/-- However many modest sizes are added up, their sum is finite. -/
theorem Amount.foldl_modest (h : Amount x v) (each : ∀ y ∈ xs, Modest y) :
    (xs.foldl (· + ·) x).isFinite = true := by
  induction xs generalizing x v with
  | nil => exact h.isFinite
  | cons y xs ih =>
      obtain ⟨first, others⟩ := List.forall_mem_cons.1 each
      obtain ⟨t, sum⟩ := h.add_modest first
      exact ih sum others

/-- A float with such an exponent is modest, whatever its significand. -/
def hasModestExponent (x : Float) : Bool :=
  match Parts.of x with
  | .finite false _ q => q ≤ 917
  | _ => false

theorem modest_of_exponent (h : hasModestExponent x = true) : Modest x := by
  rw [hasModestExponent] at h
  split at h
  case h_1 m q parts =>
    obtain ⟨rfl, range⟩ := eq_floatOf parts
    refine ⟨_, amount_floatOf range, ?_⟩
    have small : (m : ℚ) < 2 ^ 53 := by exact_mod_cast range.small
    have step : (2 : ℚ) ^ q ≤ 2 ^ (917 : Int) :=
      zpow_le_zpow_right₀ one_le_two (of_decide_eq_true h)
    calc (m * 2 ^ q : ℚ) < 2 ^ 53 * 2 ^ q := mul_lt_mul_of_pos_right small (by positivity)
      _ ≤ 2 ^ 53 * 2 ^ (917 : Int) := mul_le_mul_of_nonneg_left step (by positivity)
      _ = 2 ^ (970 : Int) := by
        rw [← zpow_natCast, ← zpow_add₀ two_ne_zero]
        norm_num
  case h_2 => cases h

end Sums

section Places
open Decimal
variable {x : Float} {negative : Bool} {digits places m : Nat} {tens q : Int}

theorem isFinite_floatNearest (less : (digits * 10 ^ tens : ℚ) < floatEnd)
    (least : 0 < digits → 2 ^ (-1074 : Int) ≤ (digits * 10 ^ tens : ℚ)) :
    (floatNearest negative digits tens).isFinite = true := by
  obtain rfl | positive := Nat.eq_zero_or_pos digits
  · have zero : floatNearest negative 0 tens = if negative then -0 else 0 := by
      simp only [floatNearest, true_or, if_true]
    rw [zero]
    cases negative <;> decide
  · have at_least := least positive
    obtain ⟨r, q, canonical, nearest⟩ := exists_nearest (lt_of_lt_of_le (by positivity) at_least)
    have range : InRange r q := ⟨canonical, (nearest.most_iff canonical).2 less⟩
    rw [floatNearest_eq negative positive range (nearest.positive canonical at_least) nearest]
    exact isFinite_floatOf range

/-- What is rounded to places is no more than half a unit of the last place away. -/
theorem unitsOf_le (places m : Nat) (q : Int) :
    (unitsOf places m q * 10 ^ (-places : Int) : ℚ) ≤ m * 2 ^ q + 1 := by
  have den := scaled_den_pos m q places
  have unit : (0 : ℚ) < (scaled m q places).2 := by exact_mod_cast den
  have rounded : Rounded (unitsOf places m q) ((scaled m q places).1 / (scaled m q places).2) :=
    rounded_divToEven den
  rw [scaled_num, mul_div_cancel_right₀ _ unit.ne'] at rounded
  have tens : (1 : ℚ) ≤ 10 ^ (places : Int) := one_le_zpow₀ (by norm_num) (by positivity)
  have units := sub_le_iff_le_add.1 rounded.low
  rw [zpow_neg, ← div_eq_mul_inv, div_le_iff₀ (by positivity)]
  linarith

theorem isFinite_roundTo (few : (10 : ℚ) ^ (places : Int) ≤ 2 ^ (1074 : Int)) :
    (roundTo places x).isFinite = x.isFinite := by
  rw [roundTo]
  split
  case h_1 negative m q parts =>
    obtain ⟨same, range⟩ := eq_floatOf parts
    rw [same, isFinite_floatOf range]
    have one : (1 : ℚ) < 2 ^ (970 : Int) := one_lt_zpow₀ one_lt_two (by decide)
    have bound := (amount_floatOf range).add_lt one
    refine isFinite_floatNearest ((unitsOf_le places m q).trans_lt bound) fun positive => ?_
    have one : (1 : ℚ) ≤ unitsOf places m q := by exact_mod_cast positive
    rw [zpow_neg, zpow_neg]
    calc ((2 : ℚ) ^ (1074 : Int))⁻¹ ≤ (10 ^ (places : Int))⁻¹ := inv_anti₀ (by positivity) few
      _ ≤ unitsOf places m q * (10 ^ (places : Int))⁻¹ := le_mul_of_one_le_left (by positivity) one
  case h_2 => rfl

theorem isNaN_roundTo (few : (10 : ℚ) ^ (places : Int) ≤ 2 ^ (1074 : Int)) :
    (roundTo places x).isNaN = x.isNaN := by
  cases finite : x.isFinite with
  | true => rw [isNaN_of_isFinite finite, isNaN_of_isFinite ((isFinite_roundTo few).trans finite)]
  | false =>
      rw [roundTo]
      split
      case h_1 parts => cases finite.symm.trans (isFinite_iff.2 ⟨_, _, _, parts⟩)
      case h_2 => rfl

end Places
end DependencyAudit
