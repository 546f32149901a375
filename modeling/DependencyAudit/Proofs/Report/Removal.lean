import DependencyAudit.Report.Patch
import DependencyAudit.Proofs.Diff.Stretch

/-!
Removed lines, and the lines that remain. A line is removed exactly if a flagged
verdict bears its number; of what remains, each line moves up by the number of
removed lines before it.
-/
namespace DependencyAudit

/-- No flagged verdict bears this number. -/
def unflaggedAt (verdicts : List Verdict) (n : Int) : Bool :=
  verdicts.all fun v => !v.flagged || v.line ≠ n

/-- The lines whose numbers, counted from one, no flagged verdict bears. -/
def unflagged {α : Type} (verdicts : List Verdict) (lines : List α) : List α :=
  ((lines.zipIdx 1).filter fun line => unflaggedAt verdicts line.2).map (·.1)

/-- How many removed lines stand before a line. -/
def removedBefore (removed : List Int) (n : Int) : Nat := removed.countP (· < n)

def stretchesFrom {α : Type} (removed : List Int) (first : Int) : List α → List (List α)
  | [] => [[]]
  | line :: rest =>
    if removed.contains first then [] :: stretchesFrom removed (first + 1) rest
    else (stretchesFrom removed (first + 1) rest).modifyHead (line :: ·)

/-- What remains, apart wherever a line is removed. -/
def remainingStretches {α : Type} (removed : List Int) (lines : List α) : List (List α) :=
  stretchesFrom removed 1 lines

section RemovedLines

theorem mem_lines_after (listed : List Int) (verdicts : List Verdict) (n : Int) :
    n ∈ (Edit.ofVerdictsAfter listed verdicts).map (·.line) ↔
      n ∉ listed ∧ ∃ v ∈ verdicts, v.flagged = true ∧ v.line = n := by
  induction verdicts generalizing listed with
  | nil => simp [Edit.ofVerdictsAfter]
  | cons v rest ih =>
      simp only [Edit.ofVerdictsAfter]
      split
      case isTrue new =>
        have ⟨flagged, fresh⟩ : v.flagged = true ∧ v.line ∉ listed := by simpa using new
        rw [List.map_cons, List.mem_cons, ih, List.exists_mem_cons_iff]
        constructor
        · rintro (rfl | ⟨hn, found⟩)
          · exact ⟨fresh, .inl ⟨flagged, rfl⟩⟩
          · exact ⟨fun listed => hn (List.mem_cons_of_mem _ listed), .inr found⟩
        · rintro ⟨hn, ⟨_, rfl⟩ | found⟩
          · exact .inl rfl
          · by_cases same : n = v.line
            · exact .inl same
            · exact .inr ⟨by simp [same, hn], found⟩
      case isFalse old =>
        have skipped : v.flagged = true → v.line ∈ listed := by simpa using old
        rw [ih, List.exists_mem_cons_iff]
        refine and_congr_right fun hn => ⟨.inr, ?_⟩
        rintro (⟨flagged, rfl⟩ | found)
        · exact absurd (skipped flagged) hn
        · exact found

theorem mem_removedLines {verdicts : List Verdict} {n : Int} :
    n ∈ removedLines verdicts ↔ ∃ v ∈ verdicts, v.flagged = true ∧ v.line = n := by
  rw [removedLines, Edit.ofVerdicts, mem_lines_after]
  simp

theorem contains_removedLines (verdicts : List Verdict) (n : Int) :
    (removedLines verdicts).contains n = !unflaggedAt verdicts n := by
  rw [Bool.eq_iff_iff, List.contains_iff_mem, mem_removedLines]
  simp [unflaggedAt]

theorem nodup_removedLines (verdicts : List Verdict) : (removedLines verdicts).Nodup := by
  suffices after : ∀ listed, ((Edit.ofVerdictsAfter listed verdicts).map (·.line)).Nodup from
    after []
  induction verdicts with
  | nil => exact fun _ => .nil
  | cons v rest ih =>
      intro listed
      simp only [Edit.ofVerdictsAfter]
      split
      · refine List.nodup_cons.2 ⟨?_, ih (v.line :: listed)⟩
        intro again
        exact ((mem_lines_after _ _ _).1 again).1 List.mem_cons_self
      · exact ih listed

end RemovedLines

section Remaining
variable {α : Type}

theorem remainingFrom_eq (removed : List Int) (first : Nat) (lines : List α) :
    remainingFrom removed first lines =
      ((lines.zipIdx first).filter fun line => !removed.contains (line.2 : Int)).map (·.1) := by
  induction lines generalizing first with
  | nil => rfl
  | cons line rest ih =>
      have next := ih (first + 1)
      have cast : ((first + 1 : Nat) : Int) = first + 1 := by omega
      rw [cast] at next
      simp only [remainingFrom, List.zipIdx_cons, List.filter_cons, next]
      cases removed.contains (first : Int) <;> rfl

theorem remaining_removedLines (verdicts : List Verdict) (lines : List α) :
    remaining (removedLines verdicts) lines = unflagged verdicts lines := by
  rw [remaining, unflagged]
  have whole := remainingFrom_eq (removedLines verdicts) 1 lines
  simp only [contains_removedLines, Bool.not_not] at whole
  exact whole

theorem remainingFrom_map {β : Type} (f : α → β) (removed : List Int) (first : Int)
    (lines : List α) :
    remainingFrom removed first (lines.map f) = (remainingFrom removed first lines).map f := by
  induction lines generalizing first with
  | nil => rfl
  | cons line rest ih =>
      simp only [List.map_cons, remainingFrom, ih]
      split <;> rfl

theorem remainingFrom_eq_self {removed : List Int} {first : Int} {lines : List α}
    (h : ∀ n ∈ removed, ¬ (first ≤ n ∧ n < first + lines.length)) :
    remainingFrom removed first lines = lines := by
  induction lines generalizing first with
  | nil => rfl
  | cons line rest ih =>
      have stays : removed.contains first = false := by
        rw [← Bool.not_eq_true, List.contains_iff_mem]
        intro member
        exact h first member ⟨Int.le_refl _, by simp only [List.length_cons]; omega⟩
      rw [remainingFrom, if_neg (by simp only [stays, Bool.false_eq_true, not_false_eq_true]), ih]
      intro n hn within
      refine h n hn ⟨by omega, ?_⟩
      simp only [List.length_cons]
      omega

theorem length_remainingFrom_le (removed : List Int) (first : Int) (lines : List α) :
    (remainingFrom removed first lines).length ≤ lines.length := by
  induction lines generalizing first with
  | nil => exact Nat.le_refl _
  | cons line rest ih =>
      have := ih (first + 1)
      simp only [remainingFrom]
      split <;> simp only [List.length_cons] <;> omega

theorem length_remainingFrom_lt {removed : List Int} {first n : Int} {lines : List α}
    (hn : n ∈ removed) (within : first ≤ n ∧ n < first + lines.length) :
    (remainingFrom removed first lines).length < lines.length := by
  induction lines generalizing first with
  | nil =>
      simp only [List.length_nil] at within
      omega
  | cons line rest ih =>
      simp only [remainingFrom]
      split
      case isTrue gone =>
        have := length_remainingFrom_le removed (first + 1) rest
        simp only [List.length_cons]
        omega
      case isFalse stays =>
        have ne : first ≠ n := by
          rintro rfl
          exact stays (List.contains_iff_mem.2 hn)
        simp only [List.length_cons] at within ⊢
        have := @ih (first + 1) ⟨by omega, by omega⟩
        omega

/-- Where the text of a line decides whether it is removed, what remains is what
is live by its text. -/
theorem remainingFrom_of_live {removed : List Int} {first : Int} {live : α → Bool} {lines : List α}
    (h : ∀ (i : Nat) line, lines[i]? = some line → removed.contains (first + i) = !live line) :
    remainingFrom removed first lines = lines.filter live ∧
      stretchesFrom removed first lines = Diff.stretches live lines := by
  induction lines generalizing first with
  | nil => exact ⟨rfl, rfl⟩
  | cons line rest ih =>
      have head := h 0 line rfl
      have ⟨filtered, split⟩ := @ih (first + 1) fun i other found => by
        have cast : first + ((i + 1 : Nat) : Int) = first + 1 + i := by omega
        rw [← cast]
        exact h (i + 1) other found
      have start : first + ((0 : Nat) : Int) = first := by omega
      rw [start] at head
      rw [remainingFrom, stretchesFrom, filtered, split, head, Diff.stretches_cons,
        List.filter_cons]
      cases live line <;> exact ⟨rfl, rfl⟩

end Remaining

section Numbers
variable {removed : List Int}

theorem removedBefore_succ (nodup : removed.Nodup) (n : Int) :
    removedBefore removed (n + 1) = removedBefore removed n + if n ∈ removed then 1 else 0 := by
  induction removed with
  | nil => rfl
  | cons m removed ih =>
      obtain ⟨fresh, nodup⟩ := List.nodup_cons.1 nodup
      have rest := ih nodup
      rw [removedBefore, removedBefore] at rest
      rw [removedBefore, removedBefore, List.countP_cons, List.countP_cons, rest]
      by_cases same : n = m
      · subst same
        have counted : n < n + 1 := by omega
        rw [if_neg fresh, if_pos (decide_eq_true counted), if_neg (by simp),
          if_pos List.mem_cons_self]
      · have lt_iff : m < n + 1 ↔ m < n := by omega
        have member : n ∈ m :: removed ↔ n ∈ removed := by simp [same]
        simp only [lt_iff, member]
        omega

theorem removedBefore_eq_zero {n : Int} (h : ∀ m ∈ removed, n ≤ m) :
    removedBefore removed n = 0 := by
  rw [removedBefore, List.countP_eq_zero]
  intro m hm
  have := h m hm
  simp only [decide_eq_true_eq]
  omega

end Numbers
end DependencyAudit
