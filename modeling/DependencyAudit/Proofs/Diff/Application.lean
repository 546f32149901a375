import DependencyAudit.Proofs.Diff.Script

/-!
Applying hunks to a list, strictly: a hunk fits only at the place it names in
both lists, and every old line it shows has to be there. The hunks of a script
lead from its old list to its new one, and turned round they lead back.
-/
namespace DependencyAudit.Diff
namespace Hunk
variable {α : Type}

/-- The hunk that leads back. -/
def reverse (h : Hunk α) : Hunk α := ⟨h.after, h.before, h.steps.map Step.reverse⟩

/-- Applies hunks to what is left of a list of which `read` elements have been
read and for which `written` elements have been written. -/
def applyAll? [DecidableEq α] (read written : Nat) : List (Hunk α) → List α → Option (List α)
  | [], rest => some rest
  | h :: hunks, rest =>
    let gap := h.before - read
    if read ≤ h.before ∧ h.after = written + gap ∧ gap ≤ rest.length
        ∧ h.steps.old <+: rest.drop gap then
      (applyAll? (h.before + h.steps.old.length) (h.after + h.steps.new.length) hunks
        (rest.drop (gap + h.steps.old.length))).map fun changed =>
          rest.take gap ++ h.steps.new ++ changed
    else none

def added (hunks : List (Hunk α)) : List α := hunks.flatMap fun h => h.steps.added

/-- Removed elements of all hunks with their places, counted from one. -/
def removed (hunks : List (Hunk α)) : List (Nat × α) :=
  hunks.flatMap fun h => h.steps.removedFrom (h.before + 1)

section Shown

theorem map_fst_shownFrom (left : Nat) (s : Script α) : (shownFrom left s).map (·.1) = s := by
  induction s generalizing left with
  | nil => rfl
  | cons step s ih =>
      simp only [shownFrom]
      split <;> simp only [List.map_cons, ih]

theorem isChange_of_not_shown {left : Nat} {s : Script α} {step : Step α}
    (h : (step, false) ∈ shownFrom left s) : step.isChange = false := by
  induction s generalizing left with
  | nil => cases h
  | cons first s ih =>
      simp only [shownFrom] at h
      split at h
      case isTrue change =>
        rcases List.mem_cons.1 h with here | later
        · cases here
        · exact ih later
      case isFalse same =>
        rcases List.mem_cons.1 h with here | later
        · rw [(Prod.mk.inj here).1]
          simpa using same
        · exact ih later

theorem shownFrom_map_reverse (left : Nat) (s : Script α) :
    shownFrom left (s.map Step.reverse) =
      (shownFrom left s).map fun shown => (shown.1.reverse, shown.2) := by
  induction s generalizing left with
  | nil => rfl
  | cons step s ih =>
      have near : ((s.map Step.reverse).take contextSize).any Step.isChange =
          (s.take contextSize).any Step.isChange := by
        rw [← List.map_take, List.any_map]
        congr 1
        funext x
        exact x.isChange_reverse
      simp only [List.map_cons, shownFrom, Step.isChange_reverse, near, ih]
      split <;> rfl

end Shown

section Collected
variable {shown : List (Step α × Bool)}

theorem close_map_reverse (before after : Nat) (found : Script α × List (Hunk α)) :
    (close before after found).map reverse =
      close after before (found.1.map Step.reverse, found.2.map reverse) := by
  obtain ⟨steps, hunks⟩ := found
  cases steps <;> rfl

theorem collect_map_reverse (before after : Nat) (shown : List (Step α × Bool)) :
    collect after before (shown.map fun s => (s.1.reverse, s.2)) =
      ((collect before after shown).1.map Step.reverse,
        (collect before after shown).2.map reverse) := by
  induction shown generalizing before after with
  | nil => rfl
  | cons first shown ih =>
      obtain ⟨step, visible⟩ := first
      simp only [List.map_cons, collect, Step.old?_reverse, Step.new?_reverse, ih]
      cases visible with
      | true => rfl
      | false => simp [close_map_reverse]

theorem ofScript_map_reverse (s : Script α) :
    ofScript (s.map Step.reverse) = (ofScript s).map reverse := by
  simp only [ofScript, shownFrom_map_reverse, collect_map_reverse 0 0, close_map_reverse]

theorem added_close (before after : Nat) (found : Script α × List (Hunk α)) :
    added (close before after found) = Script.added found.1 ++ added found.2 := by
  obtain ⟨steps, hunks⟩ := found
  cases steps <;> rfl

theorem removed_close (before after : Nat) (found : Script α × List (Hunk α)) :
    removed (close before after found) =
      Script.removedFrom (before + 1) found.1 ++ removed found.2 := by
  obtain ⟨steps, hunks⟩ := found
  cases steps <;> rfl

/-- The steps that are shown lose nothing of what is added. -/
theorem added_collect (before after : Nat)
    (unchanged : ∀ step, (step, false) ∈ shown → step.isChange = false) :
    let found := collect before after shown
    Script.added found.1 ++ added found.2 = Script.added (shown.map (·.1)) := by
  induction shown generalizing before after with
  | nil => rfl
  | cons first shown ih =>
      obtain ⟨step, visible⟩ := first
      have rest := ih (before + step.old?.toList.length) (after + step.new?.toList.length)
        fun s hs => unchanged s (List.mem_cons_of_mem _ hs)
      dsimp only at rest ⊢
      cases visible with
      | true =>
          cases step with
          | keep a | remove a => exact rest
          | add a => exact congrArg (a :: ·) rest
      | false =>
          have same := unchanged step List.mem_cons_self
          cases step with
          | keep a => exact (added_close _ _ _).trans rest
          | remove a | add a => cases same

theorem removed_collect (before after : Nat)
    (unchanged : ∀ step, (step, false) ∈ shown → step.isChange = false) :
    let found := collect before after shown
    Script.removedFrom (before + 1) found.1 ++ removed found.2 =
      Script.removedFrom (before + 1) (shown.map (·.1)) := by
  induction shown generalizing before after with
  | nil => rfl
  | cons first shown ih =>
      obtain ⟨step, visible⟩ := first
      have rest := ih (before + step.old?.toList.length) (after + step.new?.toList.length)
        fun s hs => unchanged s (List.mem_cons_of_mem _ hs)
      dsimp only at rest ⊢
      cases visible with
      | true =>
          cases step with
          | keep a => exact rest
          | remove a => exact congrArg ((before + 1, a) :: ·) rest
          | add a => exact rest
      | false =>
          have same := unchanged step List.mem_cons_self
          cases step with
          | keep a => exact (removed_close _ _ _).trans rest
          | remove a | add a => cases same

theorem mem_of_mem_collect (before after : Nat) {step : Step α} :
    let found := collect before after shown
    (step ∈ found.1 ∨ ∃ h ∈ found.2, step ∈ h.steps) → step ∈ shown.map (·.1) := by
  induction shown generalizing before after with
  | nil => simp [collect]
  | cons first shown ih =>
      obtain ⟨s, visible⟩ := first
      have rest := ih (before + s.old?.toList.length) (after + s.new?.toList.length)
      simp only [List.map_cons, collect]
      cases visible with
      | true =>
          rintro (here | later)
          · rcases List.mem_cons.1 here with rfl | here
            · exact List.mem_cons_self
            · exact List.mem_cons_of_mem _ (rest (.inl here))
          · exact List.mem_cons_of_mem _ (rest (.inr later))
      | false =>
          rintro (here | ⟨h, hh, hs⟩)
          · cases here
          · apply List.mem_cons_of_mem
            apply rest
            simp only [close, Bool.false_eq_true, ite_false] at hh
            split at hh
            · exact .inr ⟨h, hh, hs⟩
            · rcases List.mem_cons.1 hh with rfl | hh
              · exact .inl hs
              · exact .inr ⟨h, hh, hs⟩

theorem mem_of_mem_ofScript {s : Script α} {h : Hunk α} {step : Step α} (hh : h ∈ ofScript s)
    (hs : step ∈ h.steps) : step ∈ s := by
  rw [← map_fst_shownFrom 0 s]
  apply mem_of_mem_collect 0 0
  rw [ofScript, close] at hh
  split at hh
  · exact .inr ⟨h, hh, hs⟩
  · rcases List.mem_cons.1 hh with rfl | hh
    · exact .inl hs
    · exact .inr ⟨h, hh, hs⟩

/-- Without a change nothing is shown. -/
theorem ofScript_eq_nil {s : Script α} (h : ∀ step ∈ s, step.isChange = false) :
    ofScript s = [] := by
  have hidden : ∀ before after, collect before after (shownFrom 0 s) = ([], []) := by
    induction s with
    | nil => exact fun _ _ => rfl
    | cons step s ih =>
        intro before after
        have same := h step List.mem_cons_self
        have rest := ih fun t ht => h t (List.mem_cons_of_mem _ ht)
        have near : (s.take contextSize).any Step.isChange = false := by
          rw [List.any_eq_false]
          intro t ht
          simp [h t (List.mem_cons_of_mem _ (List.mem_of_mem_take ht))]
        simp only [shownFrom, same, near, Bool.false_eq_true, ite_false, Nat.lt_irrefl,
          decide_false, Bool.or_false, Nat.zero_sub, collect, rest]
        rfl
  rw [ofScript, hidden]
  rfl

theorem added_ofScript (s : Script α) : added (ofScript s) = s.added := by
  rw [ofScript, added_close, added_collect 0 0 fun _ h => isChange_of_not_shown h,
    map_fst_shownFrom]

theorem removed_ofScript (s : Script α) : removed (ofScript s) = s.removedFrom 1 := by
  rw [ofScript, removed_close, removed_collect 0 0 fun _ h => isChange_of_not_shown h,
    map_fst_shownFrom]

end Collected

section Applied
variable [DecidableEq α] {shown : List (Step α × Bool)}

theorem applyAll?_cons {h : Hunk α} {hunks : List (Hunk α)} {read written : Nat}
    {front old new : List α} (hread : read + front.length = h.before)
    (hwritten : written + front.length = h.after)
    (applied : applyAll? (h.before + h.steps.old.length) (h.after + h.steps.new.length) hunks old
      = some new) :
    applyAll? read written (h :: hunks) (front ++ (h.steps.old ++ old)) =
      some (front ++ (h.steps.new ++ new)) := by
  have gap : h.before - read = front.length := by omega
  have rest : (front ++ (h.steps.old ++ old)).drop (front.length + h.steps.old.length) = old := by
    rw [← List.append_assoc]
    exact List.drop_left' (by simp)
  have fits : read ≤ h.before ∧ h.after = written + front.length ∧
      front.length ≤ (front ++ (h.steps.old ++ old)).length ∧
      h.steps.old <+: (front ++ (h.steps.old ++ old)).drop front.length := by
    refine ⟨by omega, hwritten.symm, by simp, ?_⟩
    rw [List.drop_left]
    exact List.prefix_append _ _
  simp only [applyAll?, gap]
  rw [if_pos fits, rest, applied, List.take_left, Option.map_some, List.append_assoc]

/-- The steps at the front and the hunks behind them lead from `old` to `new`. -/
def Leads (before after : Nat) (found : Script α × List (Hunk α)) (old new : List α) : Prop :=
  ∃ old' new', old = found.1.old ++ old' ∧ new = found.1.new ++ new' ∧
    applyAll? (before + found.1.old.length) (after + found.1.new.length) found.2 old' = some new'

theorem Leads.cons {before after : Nat} {found : Script α × List (Hunk α)} {old new : List α}
    (step : Step α)
    (h : Leads (before + step.old?.toList.length) (after + step.new?.toList.length) found old new) :
    Leads before after (step :: found.1, found.2) (step.old?.toList ++ old)
      (step.new?.toList ++ new) := by
  obtain ⟨old', new', rfl, rfl, applied⟩ := h
  refine ⟨old', new', ?_, ?_, ?_⟩
  · rw [Script.old_cons, List.append_assoc]
  · rw [Script.new_cons, List.append_assoc]
  · rwa [Script.old_cons, Script.new_cons, List.length_append, List.length_append, ← Nat.add_assoc,
      ← Nat.add_assoc]

/-- Steps at the front make a hunk, before which there may be unshown elements. -/
theorem Leads.applyAll?_close {before after read written : Nat} {found : Script α × List (Hunk α)}
    {old new front : List α} (h : Leads before after found old new) (ne : found.1 ≠ [])
    (hread : read + front.length = before) (hwritten : written + front.length = after) :
    applyAll? read written (close before after found) (front ++ old) = some (front ++ new) := by
  obtain ⟨old', new', rfl, rfl, applied⟩ := h
  have single : close before after found = ⟨before, after, found.1⟩ :: found.2 := by
    simp [close, ne]
  rw [single]
  exact applyAll?_cons hread hwritten applied

theorem leads_collect (before after : Nat)
    (unchanged : ∀ step, (step, false) ∈ shown → step.isChange = false) :
    let found := collect before after shown
    let old := Script.old (shown.map (·.1))
    let new := Script.new (shown.map (·.1))
    Leads before after found old new ∧
      ∀ (read written : Nat) (front : List α), read + front.length = before →
        written + front.length = after →
          applyAll? read written (close before after found) (front ++ old) =
            some (front ++ new) := by
  induction shown generalizing before after with
  | nil =>
      refine ⟨⟨[], [], rfl, rfl, rfl⟩, ?_⟩
      intro read written front _ _
      rfl
  | cons first shown ih =>
      obtain ⟨step, visible⟩ := first
      obtain ⟨leads, fits⟩ := ih (before + step.old?.toList.length)
        (after + step.new?.toList.length) fun s hs => unchanged s (List.mem_cons_of_mem _ hs)
      cases visible with
      | true =>
          have longer := leads.cons step
          simp only [List.map_cons, collect, ite_true, Script.old_cons, Script.new_cons]
          refine ⟨longer, ?_⟩
          intro read written front hread hwritten
          exact longer.applyAll?_close (List.cons_ne_nil _ _) hread hwritten
      | false =>
          have same := unchanged step List.mem_cons_self
          cases step with
          | remove a | add a => cases same
          | keep a =>
              refine ⟨⟨_, _, rfl, rfl, fits before after [a] rfl rfl⟩, ?_⟩
              intro read written front hread hwritten
              have longer : (front ++ [a]).length = front.length + 1 := List.length_append
              have next := fits read written (front ++ [a])
                (by rw [longer, ← Nat.add_assoc, hread]; rfl)
                (by rw [longer, ← Nat.add_assoc, hwritten]; rfl)
              rw [List.append_assoc, List.append_assoc] at next
              exact next

theorem applyAll?_ofScript (s : Script α) : applyAll? 0 0 (ofScript s) s.old = some s.new := by
  have unchanged : ∀ step, (step, false) ∈ shownFrom 0 s → step.isChange = false :=
    fun _ h => isChange_of_not_shown h
  have applied := (leads_collect 0 0 unchanged).2 0 0 [] rfl rfl
  rwa [map_fst_shownFrom] at applied

theorem applyAll?_reverse_ofScript (s : Script α) :
    applyAll? 0 0 ((ofScript s).map reverse) s.new = some s.old := by
  have applied := applyAll?_ofScript (s.map Step.reverse)
  rwa [ofScript_map_reverse, Script.old_map_reverse, Script.new_map_reverse] at applied

end Applied
end Hunk
end DependencyAudit.Diff
