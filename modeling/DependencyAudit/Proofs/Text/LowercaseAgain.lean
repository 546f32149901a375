import Mathlib
import DependencyAudit.Proofs.Text.Lowercase

/-!
Lower case of a text that is in lower case already. What a row of the mappings moves is moved by
no row again, so no character that comes of a mapping is touched by one. Nor is any of them white
space, so a text in lower case is blank only if it was.
-/
namespace DependencyAudit.Text

/-- The dotted capital, which has a mapping of its own, as a row. -/
def dottedRow : CaseRow := ⟨0x130, 0x130, 1, 0⟩

def CaseRow.moved (r : CaseRow) (n : Nat) : Nat := (n + r.shift).toNat

/-- Whether a row holds nothing from `low` to `high`, or nothing on every second place there. -/
def CaseRow.spares (low high : Nat) (seconds : Bool) (r : CaseRow) : Bool :=
  Nat.blt high r.first || Nat.blt r.last low || seconds && r.step == 2 && (low + r.first) % 2 == 1

/-- What rows move is moved by none of them again, nor is it a capital of ASCII. -/
theorem caseRows_spare : caseRows.all (fun r => 0x5B ≤ r.first + r.shift &&
    (dottedRow :: caseRows).all (CaseRow.spares (r.moved r.first) (r.moved r.last)
      (r.step == 2 || r.first == r.last))) = true := by
  decide +kernel

theorem CaseRow.holds_iff {r : CaseRow} {n : Nat} :
    r.holds n = true ↔ r.first ≤ n ∧ n ≤ r.last ∧ (n - r.first) % r.step = 0 := by
  simp [holds, and_assoc]

theorem CaseRow.not_holds_of_spares {r : CaseRow} {low high n : Nat} {seconds : Bool}
    (h : r.spares low high seconds = true) (least : low ≤ n) (most : n ≤ high)
    (even : seconds = true → n % 2 = low % 2) : r.holds n = false := by
  rw [← Bool.not_eq_true, holds_iff]
  rintro ⟨first, last, step⟩
  simp only [spares, Bool.or_eq_true, Bool.and_eq_true, Nat.blt_eq, beq_iff_eq] at h
  obtain (above | below) | ⟨⟨seconds, two⟩, odd⟩ := h
  · omega
  · omega
  · have := even seconds
    rw [two] at step
    omega

theorem not_holds_moved {r s : CaseRow} {n : Nat} (hr : r ∈ caseRows) (h : r.holds n = true)
    (hs : s ∈ dottedRow :: caseRows) : s.holds (r.moved n) = false ∧ 0x5B ≤ r.moved n := by
  obtain ⟨least, spared⟩ := Bool.and_eq_true_iff.1 (List.all_eq_true.1 caseRows_spare r hr)
  have least : (0x5B : Int) ≤ r.first + r.shift := of_decide_eq_true least
  obtain ⟨first, last, step⟩ := CaseRow.holds_iff.1 h
  have spared := List.all_eq_true.1 spared s hs
  refine ⟨CaseRow.not_holds_of_spares spared ?least ?most ?even, ?small⟩
  all_goals simp only [CaseRow.moved]
  case even =>
    intro seconds
    obtain two | one := Bool.or_eq_true_iff.1 seconds
    · rw [beq_iff_eq.1 two] at step
      omega
    · have := beq_iff_eq.1 one
      omega
  all_goals omega

theorem toNat_ofNat (n : Nat) : (Char.ofNat n).toNat = n ∨ Char.ofNat n = '\x00' := by
  unfold Char.ofNat
  split
  · exact .inl rfl
  · exact .inr rfl

theorem toLower_eq_self {c : Char} (h : 0x5B ≤ c.toNat) : c.toLower = c := by
  rw [Char.toLower, dif_neg]
  intro upper
  have most : c.toNat ≤ 0x5A := upper.2
  omega

/-- What no row holds is left as it is. -/
theorem isLower_of_not_holds {c : Char} (small : 0x5B ≤ c.toNat)
    (h : ∀ r ∈ dottedRow :: caseRows, r.holds c.toNat = false) : IsLower c := by
  have fixed : lowerSimple c = c := by
    unfold lowerSimple
    split
    · exact toLower_eq_self small
    · have missing : caseRows.find? (·.holds c.toNat) = none := by
        rw [List.find?_eq_none]
        intro r hr
        simp [h r (List.mem_cons_of_mem _ hr)]
      rw [missing]
  refine ⟨?_, ?_, fixed⟩
  · rintro rfl
    exact absurd fixed (by decide)
  · rintro rfl
    have held : dottedRow.holds 'İ'.toNat = true := by decide
    cases (h dottedRow List.mem_cons_self).symm.trans held

theorem isLower_ascii {c : Char} (h : c.toNat < 0x80) : IsLower c.toLower := by
  have listed : ∀ n < 0x80, IsLower (Char.ofNat n).toLower := by decide
  have lower := listed c.toNat h
  rwa [Char.ofNat_toNat] at lower

theorem isLower_lowerSimple {c : Char} (sigma : c ≠ 'Σ') (dotted : c ≠ 'İ') :
    IsLower (lowerSimple c) := by
  by_cases ascii : c.toNat < 0x80
  · rw [lowerSimple, if_pos ascii]
    exact isLower_ascii ascii
  · cases found : caseRows.find? (·.holds c.toNat) with
    | none =>
        have same : lowerSimple c = c := by rw [lowerSimple, if_neg ascii, found]
        rw [same]
        exact ⟨sigma, dotted, same⟩
    | some r =>
        have moved : lowerSimple c = Char.ofNat (r.moved c.toNat) := by
          rw [lowerSimple, if_neg ascii, found]
          rfl
        rw [moved]
        have member := List.mem_of_find?_eq_some found
        have held := List.find?_some found
        obtain same | null := toNat_ofNat (r.moved c.toNat)
        · refine isLower_of_not_holds ?_ fun s hs => ?_ <;> rw [same]
          · exact (not_holds_moved member held List.mem_cons_self).2
          · exact (not_holds_moved member held hs).1
        · rw [null]
          exact isLower_ascii (by decide : '\x00'.toNat < 0x80)

theorem isLower_of_mem_lowerFrom {s before : List Char} :
    ∀ c ∈ lowerFrom before s, IsLower c := by
  induction s generalizing before with
  | nil => exact nofun
  | cons c s ih =>
      rw [lowerFrom]
      refine List.forall_mem_append.2 ⟨?_, ih⟩
      unfold lowerBetween
      split
      case isTrue => split <;> decide
      case isFalse sigma =>
        split
        case isTrue => decide
        case isFalse dotted =>
          exact List.forall_mem_singleton.2
            (isLower_lowerSimple (by simpa using sigma) (by simpa using dotted))

/-- Lower case has no lower case other than itself. -/
theorem lower_lower (s : List Char) : lower (lower s) = lower s :=
  lowerFrom_eq_self isLower_of_mem_lowerFrom []

/-- What rows move is not moved onto white space. -/
theorem caseRows_visible : caseRows.all (fun r => blankRanges.all fun b =>
    Nat.blt b.2 (r.moved r.first) || Nat.blt (r.moved r.last) b.1) = true := by
  decide +kernel

theorem isBlank_moved {r : CaseRow} {c : Char} (hr : r ∈ caseRows) (h : r.holds c.toNat = true) :
    isBlank (Char.ofNat (r.moved c.toNat)) = false := by
  obtain same | null := toNat_ofNat (r.moved c.toNat)
  · rw [← Bool.not_eq_true, isBlank, same, inRanges_iff]
    rintro ⟨b, hb, low, high⟩
    obtain ⟨first, last, -⟩ := CaseRow.holds_iff.1 h
    have least := (not_holds_moved hr h List.mem_cons_self).2
    have apart := List.all_eq_true.1 (List.all_eq_true.1 caseRows_visible r hr) b hb
    rw [Bool.or_eq_true, Nat.blt_eq, Nat.blt_eq] at apart
    unfold CaseRow.moved at *
    omega
  · rw [null]
    decide

theorem isBlank_of_lowerSimple {c : Char} (h : isBlank (lowerSimple c) = true) :
    isBlank c = true := by
  unfold lowerSimple at h
  split at h
  case isTrue ascii =>
    have listed : ∀ n < 0x80, isBlank (Char.ofNat n).toLower = true →
        isBlank (Char.ofNat n) = true := by decide
    have blank := listed c.toNat ascii
    rw [Char.ofNat_toNat] at blank
    exact blank h
  case isFalse =>
    split at h
    case h_1 r found =>
      have held := List.find?_some found
      cases h.symm.trans (isBlank_moved (List.mem_of_find?_eq_some found) held)
    case h_2 => exact h

theorem blank_of_lowerFrom {s before : List Char} (h : Blank (lowerFrom before s)) : Blank s := by
  induction s generalizing before with
  | nil => exact nofun
  | cons c s ih =>
      rw [lowerFrom] at h
      obtain ⟨here, behind⟩ := List.forall_mem_append.1 h
      refine List.forall_mem_cons.2 ⟨?_, ih behind⟩
      unfold lowerBetween at here
      split at here
      case isTrue =>
        have sigma := here _ List.mem_cons_self
        split at sigma <;> cases sigma
      case isFalse =>
        split at here
        case isTrue => cases here _ List.mem_cons_self
        case isFalse => exact isBlank_of_lowerSimple (here _ List.mem_cons_self)

theorem blank_lower_iff {s : List Char} : Blank (lower s) ↔ Blank s := by
  constructor
  · exact blank_of_lowerFrom
  · intro blank
    rwa [lower, lowerFrom_eq_self fun c hc => isLower_of_isBlank (blank c hc)]

end DependencyAudit.Text
