import DependencyAudit.Proofs.Number.Scientific
import DependencyAudit.Number.Reading
import DependencyAudit.Number.Text

/-!
The shortest decimal of a float. On whatever grid it is found it lies among the numbers that
the float is nearest to: the neighbours on a grid are taken only if they are within the
ends, and on the grid of seventeen digits the nearest neighbour always is.
-/
namespace DependencyAudit

section Digits
variable {s : List Char} {n : Nat}

theorem natOfDigits_eq (s : List Char) : natOfDigits s = Nat.ofDigitChars 10 s 0 :=
  Nat.ofDigitChars_eq_foldl.symm

theorem natOfDigits_append (s t : List Char) :
    natOfDigits (s ++ t) = natOfDigits s * 10 ^ t.length + natOfDigits t := by
  simp only [natOfDigits_eq, Nat.ofDigitChars_append]
  rw [Nat.ofDigitChars_eq_ofDigitChars_zero, Nat.mul_comm]

theorem natOfDigits_toDigits (n : Nat) : natOfDigits (Nat.toDigits 10 n) = n := by
  rw [natOfDigits_eq, Nat.ofDigitChars_ten_toDigits]

theorem natOfDigits_zeros (n : Nat) : natOfDigits (zeros n) = 0 := by
  rw [natOfDigits_eq, zeros, Nat.ofDigitChars_replicate_zero, Nat.mul_zero]

theorem isDigit_of_mem_toDigits {c : Char} (h : c ∈ Nat.toDigits 10 n) : isDigit c = true := by
  have := Nat.isDigit_of_mem_toDigits (by decide) (by decide) h
  simpa [isDigit, Char.isDigit, Char.le_def] using this

theorem natOfDigits_lt (h : ∀ c ∈ s, isDigit c = true) : natOfDigits s < 10 ^ s.length := by
  induction s with
  | nil => decide
  | cons c s ih =>
      have digit : c.toNat - '0'.toNat ≤ 9 := by
        have := h c List.mem_cons_self
        simp only [isDigit, Bool.and_eq_true, decide_eq_true_eq] at this
        have : c.toNat ≤ '9'.toNat := this.2
        change c.toNat - 48 ≤ 9
        change c.toNat ≤ 57 at this
        omega
      have rest := ih fun d hd => h d (List.mem_cons_of_mem _ hd)
      have single : natOfDigits [c] = c.toNat - '0'.toNat := by simp [natOfDigits]
      rw [← List.singleton_append, natOfDigits_append, single, List.singleton_append,
        List.length_cons, pow_succ]
      nlinarith

theorem dropZeros_append (s : List Char) : ∃ n, s = Decimal.dropZeros s ++ zeros n := by
  refine ⟨(s.rtakeWhile (· == '0')).length, ?_⟩
  have ended : s.rtakeWhile (· == '0') = zeros (s.rtakeWhile (· == '0')).length := by
    apply List.eq_replicate_of_mem
    intro c hc
    simpa using List.mem_rtakeWhile_imp hc
  rw [← ended]
  exact (List.rdropWhile_append_rtakeWhile ..).symm

/-- The first digit of a number is not a zero. -/
theorem toDigits_eq_cons (positive : 0 < n) :
    ∃ c s, Nat.toDigits 10 n = c :: s ∧ c ≠ '0' := by
  obtain ⟨c, s, digits⟩ := List.exists_cons_of_ne_nil (Nat.toDigits_ne_nil (n := n) (b := 10))
  refine ⟨c, s, digits, ?_⟩
  rintro rfl
  have value : natOfDigits s = n := by
    have := natOfDigits_toDigits n
    rw [digits, ← List.singleton_append, natOfDigits_append] at this
    simpa [natOfDigits] using this
  have less : natOfDigits s < 10 ^ s.length := natOfDigits_lt fun d hd =>
    isDigit_of_mem_toDigits (n := n) (digits ▸ List.mem_cons_of_mem _ hd)
  have least := ten_pow_length_le positive
  rw [digits, List.length_cons, Nat.add_sub_cancel] at least
  omega

end Digits

namespace Decimal

/-- What a decimal is worth. -/
def value (d : Decimal) : ℚ := natOfDigits d.digits * 10 ^ (d.point - d.digits.length)

/-- The digits of a decimal are such, and there is one; the first is not a zero. -/
structure Proper (d : Decimal) : Prop where
  digits : ∀ c ∈ d.digits, isDigit c = true
  first : ∃ c s, d.digits = c :: s ∧ c ≠ '0'

section Count
variable {count : Nat} {tens : Int}

theorem proper_ofCount (positive : 0 < count) : (ofCount count tens).Proper := by
  obtain ⟨n, zerosEnd⟩ := dropZeros_append (Nat.toDigits 10 count)
  obtain ⟨c, s, digits, nonzero⟩ := toDigits_eq_cons positive
  constructor
  · intro d hd
    apply isDigit_of_mem_toDigits (n := count)
    rw [zerosEnd]
    exact List.mem_append_left _ hd
  · change ∃ c s, dropZeros (Nat.toDigits 10 count) = c :: s ∧ c ≠ '0'
    cases kept : dropZeros (Nat.toDigits 10 count) with
    | nil =>
        have value := natOfDigits_toDigits count
        rw [zerosEnd, kept, List.nil_append, natOfDigits_zeros] at value
        omega
    | cons d t =>
        rw [kept, digits] at zerosEnd
        obtain ⟨rfl, -⟩ := List.cons.inj zerosEnd
        exact ⟨_, _, rfl, nonzero⟩

theorem value_ofCount (count : Nat) (tens : Int) :
    (ofCount count tens).value = count * 10 ^ tens := by
  obtain ⟨n, zerosEnd⟩ := dropZeros_append (Nat.toDigits 10 count)
  have number : natOfDigits (dropZeros (Nat.toDigits 10 count)) * 10 ^ n = count := by
    conv_rhs => rw [← natOfDigits_toDigits count, zerosEnd, natOfDigits_append,
      natOfDigits_zeros]
    simp [zeros]
  have length : (Nat.toDigits 10 count).length
      = (dropZeros (Nat.toDigits 10 count)).length + n := by
    conv_lhs => rw [zerosEnd]
    simp [zeros]
  have point : ((Nat.toDigits 10 count).length + tens
      - (dropZeros (Nat.toDigits 10 count)).length : Int) = n + tens := by
    omega
  change (natOfDigits (dropZeros (Nat.toDigits 10 count)) : ℚ)
    * 10 ^ ((Nat.toDigits 10 count).length + tens - (dropZeros (Nat.toDigits 10 count)).length) = _
  rw [point, zpow_add₀ (by norm_num), ← mul_assoc, zpow_natCast]
  congr 1
  exact_mod_cast number

end Count

section Grid
variable {s c low high num den : Nat} {e tens : Int} {ends : Bool}

theorem scaled_den_pos (s : Nat) (e tens : Int) : 0 < (scaled s e tens).2 :=
  Nat.mul_pos (Nat.pow_pos (by decide)) (Nat.pow_pos (by decide))

theorem scaled_num (s : Nat) (e tens : Int) :
    ((scaled s e tens).1 : ℚ) = s * 2 ^ e * 10 ^ tens * (scaled s e tens).2 := by
  rw [zpow_eq_div two_ne_zero, zpow_eq_div (show (10 : ℚ) ≠ 0 by norm_num)]
  simp only [scaled, Nat.pow_eq, Nat.cast_mul, Nat.cast_pow, Nat.cast_ofNat]
  field_simp

theorem scaled_le_iff : (scaled s e tens).1 ≤ c * (scaled s e tens).2 ↔
    (s * 2 ^ e : ℚ) ≤ c * 10 ^ (-tens) := by
  have den : (0 : ℚ) < (scaled s e tens).2 := by exact_mod_cast scaled_den_pos s e tens
  rw [← Nat.cast_le (α := ℚ), scaled_num, Nat.cast_mul, mul_le_mul_iff_left₀ den, zpow_neg,
    ← div_eq_mul_inv, le_div_iff₀ (by positivity)]

theorem le_scaled_iff : c * (scaled s e tens).2 ≤ (scaled s e tens).1 ↔
    (c * 10 ^ (-tens) : ℚ) ≤ s * 2 ^ e := by
  have den : (0 : ℚ) < (scaled s e tens).2 := by exact_mod_cast scaled_den_pos s e tens
  rw [← Nat.cast_le (α := ℚ), scaled_num, Nat.cast_mul, mul_le_mul_iff_left₀ den, zpow_neg,
    ← div_eq_mul_inv, div_le_iff₀ (by positivity)]

theorem rounded_divToEven (positive : 0 < den) : Rounded (divToEven num den) (num / den) := by
  have unit : (0 : ℚ) < den := by exact_mod_cast positive
  have nonneg : (0 : ℚ) ≤ (num % den : Nat) / den := by positivity
  have below : ((num % den : Nat) / den : ℚ) < 1 :=
    (div_lt_one unit).2 (by exact_mod_cast Nat.mod_lt num positive)
  rw [quotient_eq_add num positive]
  simp only [divToEven]
  split
  case isTrue less =>
      have half : ((num % den : Nat) / den : ℚ) < 1 / 2 := by
        rw [div_lt_div_iff₀ unit two_pos]
        exact_mod_cast (by omega : num % den * 2 < 1 * den)
      apply rounded_of_lt <;> linarith
  case isFalse more =>
      split
      case isTrue greater =>
          have half : (1 / 2 : ℚ) < (num % den : Nat) / den := by
            rw [div_lt_div_iff₀ two_pos unit]
            exact_mod_cast (by omega : 1 * den < num % den * 2)
          apply rounded_of_lt <;> push_cast <;> linarith
      case isFalse notGreater =>
          have half : ((num % den : Nat) / den : ℚ) = 1 / 2 := by
            rw [div_eq_div_iff unit.ne' two_ne_zero]
            exact_mod_cast (by omega : num % den * 2 = 1 * den)
          rw [half]
          split
          case isTrue even => exact ⟨by linarith, le_rfl, fun _ => even⟩
          case isFalse odd =>
              refine ⟨?_, ?_, fun _ => by omega⟩ <;> push_cast <;> linarith

theorem pointAbove_le (hn : 0 < num) (hd : 0 < den) :
    (10 : ℚ) ^ (pointAbove num den - 1) ≤ num / den := by
  have unit : (0 : ℚ) < den := by exact_mod_cast hd
  rw [le_div_iff₀ unit]
  unfold pointAbove
  split
  case isTrue more =>
      have least := ten_pow_length_le (Nat.div_pos more hd)
      have length := Nat.length_toDigits_pos (b := 10) (n := num / den)
      have power : ((Nat.toDigits 10 (num / den)).length - 1 : Int)
          = ((Nat.toDigits 10 (num / den)).length - 1 : Nat) := by
        omega
      rw [power, zpow_natCast]
      exact_mod_cast (Nat.mul_le_mul_right den least).trans (Nat.div_mul_le_self num den)
  case isFalse less =>
      have most := lt_ten_pow_length (den / num)
      rw [Nat.div_lt_iff_lt_mul hn] at most
      rw [sub_sub_cancel_left, zpow_neg, zpow_natCast, ← div_eq_inv_mul,
        div_le_iff₀ (by positivity), mul_comm]
      exact_mod_cast most.le

theorem divToEven_eq (num den : Nat) :
    divToEven num den = num / den ∨ divToEven num den = num / den + 1 := by
  simp only [divToEven]
  split_ifs <;> simp

theorem le_of_hit {a b : Nat} (h : if ends = true then a ≤ b else a < b) :
    a ≤ b ∧ (a = b → ends = true) := by
  split at h
  case isTrue included => exact ⟨h, fun _ => included⟩
  case isFalse => exact ⟨h.le, fun same => absurd same h.ne⟩

/-- The neighbour on the grid that was chosen lies within the ends. -/
theorem within_of_gridPoint? (h : gridPoint? num low high den ends = some c) (positive : 0 < den)
    (below : low ≤ num) (above : num < high) :
    low ≤ c * den ∧ c * den ≤ high ∧ (low = c * den ∨ c * den = high → ends = true) := by
  have least : num / den * den ≤ num := Nat.div_mul_le_self num den
  have most : num < (num / den + 1) * den := Nat.lt_mul_of_div_lt (Nat.lt_succ_self _) positive
  simp only [gridPoint?] at h
  split at h
  case h_1 lowHit highHit =>
      obtain ⟨lowLe, lowEnd⟩ := le_of_hit (of_decide_eq_true lowHit)
      obtain ⟨leHigh, highEnd⟩ := le_of_hit (of_decide_eq_true highHit)
      cases h
      rcases divToEven_eq num den with near | near <;> rw [near]
      · exact ⟨lowLe, by omega, Or.rec lowEnd fun atEnd => by omega⟩
      · exact ⟨by omega, leHigh, Or.rec (fun atEnd => by omega) highEnd⟩
  case h_2 lowHit _ =>
      obtain ⟨lowLe, lowEnd⟩ := le_of_hit (of_decide_eq_true lowHit)
      cases h
      exact ⟨lowLe, by omega, Or.rec lowEnd fun atEnd => by omega⟩
  case h_3 _ highHit =>
      obtain ⟨leHigh, highEnd⟩ := le_of_hit (of_decide_eq_true highHit)
      cases h
      exact ⟨by omega, leHigh, Or.rec (fun atEnd => by omega) highEnd⟩
  case h_4 => cases h

end Grid

section Shortest
variable {m c : Nat} {q tens point : Int}

/-- A count on a grid that lies within the ends there is nearest to the float. -/
theorem nearest_of_within (positive : 0 < m)
    (low : (scaled (4 * m - gapBelow m q) (q - 2) tens).1 ≤ c * (scaled (4 * m) (q - 2) tens).2)
    (high : c * (scaled (4 * m) (q - 2) tens).2 ≤ (scaled (4 * m + 2) (q - 2) tens).1)
    (even : (scaled (4 * m - gapBelow m q) (q - 2) tens).1 = c * (scaled (4 * m) (q - 2) tens).2 ∨
      c * (scaled (4 * m) (q - 2) tens).2 = (scaled (4 * m + 2) (q - 2) tens).1 → m % 2 = 0) :
    Nearest m q (c * 10 ^ (-tens)) := by
  have gap : gapBelow m q ≤ 4 * m := (gapBelow_le m q).trans (by omega)
  have below : ((4 * m - gapBelow m q : Nat) : ℚ) = 4 * m - gapBelow m q := by
    push_cast [gap]
    rfl
  have above : ((4 * m + 2 : Nat) : ℚ) = 4 * m + 2 := by push_cast; rfl
  refine ⟨below ▸ scaled_le_iff.1 low, above ▸ le_scaled_iff.1 high, fun ends => even ?_⟩
  rw [← below, ← above] at ends
  exact ends.imp (fun same => le_antisymm low (le_scaled_iff.2 same.ge))
    (fun same => le_antisymm high (scaled_le_iff.2 same.ge))

theorem four_mul_zpow (m : Nat) (q : Int) : (4 * m * 2 ^ (q - 2) : ℚ) = m * 2 ^ q := by
  rw [zpow_sub₀ two_ne_zero]
  ring

theorem scaled_quarters (m : Nat) (q tens : Int) :
    ((scaled (4 * m) (q - 2) tens).1 / (scaled (4 * m) (q - 2) tens).2 : ℚ)
      = m * 2 ^ q * 10 ^ tens := by
  have den : ((scaled (4 * m) (q - 2) tens).2 : ℚ) ≠ 0 := by
    exact_mod_cast (scaled_den_pos ..).ne'
  rw [scaled_num, mul_div_cancel_right₀ _ den, ← four_mul_zpow m]
  push_cast
  rfl

/-- The value on the grid of seventeen digits rounds to a count within the ends. -/
theorem nearest_of_rounded (canonical : Canonical m q) (positive : 0 < m)
    (least : (10 : ℚ) ^ (point - 1) ≤ m * 2 ^ q)
    (rounded : Rounded c (m * 2 ^ q * 10 ^ (17 - point))) :
    Nearest m q (c * 10 ^ (point - 17)) := by
  have ten : (0 : ℚ) < 10 ^ (point - 17) := by positivity
  have scale : (m * 2 ^ q * 10 ^ (17 - point) : ℚ) = m * 2 ^ q / 10 ^ (point - 17) := by
    rw [div_eq_mul_inv, ← zpow_neg, neg_sub]
  have unit : (0 : ℚ) < 2 ^ (q - 2) := by positivity
  -- half a step of the grid is less than the distance to either end
  have step : (10 : ℚ) ^ (point - 17) / 2 < gapBelow m q * 2 ^ (q - 2) := by
    have most : m ≤ 2 ^ 52 * gapBelow m q := by
      have := canonical.small
      unfold gapBelow
      split <;> omega
    have most : (m : ℚ) ≤ 2 ^ 52 * gapBelow m q := by exact_mod_cast most
    have gap_pos : (0 : ℚ) < gapBelow m q := by exact_mod_cast one_le_gapBelow m q
    have seventeen : (10 : ℚ) ^ (point - 1) = 10 ^ 16 * 10 ^ (point - 17) := by
      rw [← zpow_natCast, ← zpow_add₀ (by norm_num)]
      congr 1
      omega
    rw [← four_mul_zpow, seventeen] at least
    have : (4 * m * 2 ^ (q - 2) : ℚ) ≤ 4 * (2 ^ 52 * gapBelow m q) * 2 ^ (q - 2) := by gcongr
    have : (0 : ℚ) < gapBelow m q * 2 ^ (q - 2) := by positivity
    linarith
  have low : (m * 2 ^ q - 10 ^ (point - 17) / 2 : ℚ) ≤ c * 10 ^ (point - 17) := by
    have := rounded.high
    rw [scale, div_le_iff₀ ten] at this
    linarith
  have high : (c * 10 ^ (point - 17) : ℚ) ≤ m * 2 ^ q + 10 ^ (point - 17) / 2 := by
    have := rounded.low
    rw [scale, le_div_iff₀ ten] at this
    linarith
  have gap : (gapBelow m q * 2 ^ (q - 2) : ℚ) ≤ 2 * 2 ^ (q - 2) := by
    have : (gapBelow m q : ℚ) ≤ 2 := by exact_mod_cast gapBelow_le m q
    gcongr
  rw [← four_mul_zpow] at low high
  refine ⟨by linarith, by linarith, ?_⟩
  rintro (same | same) <;> linarith

theorem shortest_of_grid (positive : 0 < m)
    (h : gridPoint? (scaled (4 * m) (q - 2) tens).1
      (scaled (4 * m - gapBelow m q) (q - 2) tens).1 (scaled (4 * m + 2) (q - 2) tens).1
      (scaled (4 * m) (q - 2) tens).2 (m % 2 == 0) = some c) :
    (ofCount c (-tens)).Proper ∧ Nearest m q (ofCount c (-tens)).value := by
  have increasing (s t : Nat) (h : s < t) :
      (scaled s (q - 2) tens).1 < (scaled t (q - 2) tens).1 :=
    Nat.mul_lt_mul_of_pos_right (Nat.mul_lt_mul_of_pos_right h (Nat.pow_pos (by decide)))
      (Nat.pow_pos (by decide))
  have gap := gapBelow_le m q
  have gap_pos := one_le_gapBelow m q
  obtain ⟨low, high, even⟩ := within_of_gridPoint? h (scaled_den_pos ..)
    (increasing _ _ (by omega)).le (increasing _ _ (by omega))
  rw [value_ofCount]
  refine ⟨proper_ofCount (Nat.pos_of_ne_zero ?_), nearest_of_within positive low high
    fun atEnd => eq_of_beq (even atEnd)⟩
  rintro rfl
  have := increasing 0 (4 * m - gapBelow m q) (by omega)
  omega

theorem shortest_of_last (canonical : Canonical m q) (positive : 0 < m)
    (least : (10 : ℚ) ^ (point - 1) ≤ m * 2 ^ q)
    (h : divToEven (scaled (4 * m) (q - 2) (17 - point)).1
      (scaled (4 * m) (q - 2) (17 - point)).2 = c) :
    (ofCount c (point - 17)).Proper ∧ Nearest m q (ofCount c (point - 17)).value := by
  have rounded : Rounded c (m * 2 ^ q * 10 ^ (17 - point)) := by
    rw [← scaled_quarters, ← h]
    exact rounded_divToEven (scaled_den_pos ..)
  rw [value_ofCount]
  refine ⟨proper_ofCount (Nat.pos_of_ne_zero ?_),
    nearest_of_rounded canonical positive least rounded⟩
  rintro rfl
  have large : (10 : ℚ) ^ 16 ≤ m * 2 ^ q * 10 ^ (17 - point) :=
    calc (10 : ℚ) ^ 16 = 10 ^ (point - 1) * 10 ^ (17 - point) := by
          rw [← zpow_add₀ (by norm_num), ← zpow_natCast]
          congr 1
          omega
      _ ≤ m * 2 ^ q * 10 ^ (17 - point) := by gcongr
  have small := rounded.high
  norm_num at small large
  linarith

/-- The shortest decimal of a float is one that the float is nearest to. -/
theorem shortest_spec (canonical : Canonical m q) (positive : 0 < m) :
    (shortest m q).Proper ∧ Nearest m q (shortest m q).value := by
  simp only [shortest]
  set point := pointAbove (scaled (4 * m) (q - 2) 0).1 (scaled (4 * m) (q - 2) 0).2
  have least : (10 : ℚ) ^ (point - 1) ≤ m * 2 ^ q := by
    rw [← mul_one (m * 2 ^ q : ℚ), ← zpow_zero 10, ← scaled_quarters]
    exact pointAbove_le (Nat.mul_pos (Nat.mul_pos (by omega) (Nat.pow_pos (by decide)))
      (Nat.pow_pos (by decide))) (scaled_den_pos ..)
  cases found : List.findSome? _ _ with
  | some d =>
      obtain ⟨n, -, onGrid⟩ := List.exists_of_findSome?_eq_some found
      obtain ⟨c, chosen, rfl⟩ := Option.map_eq_some_iff.1 onGrid
      exact shortest_of_grid positive chosen
  | none => exact shortest_of_last canonical positive least rfl

end Shortest
end Decimal
end DependencyAudit
