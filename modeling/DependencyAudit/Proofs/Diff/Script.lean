import DependencyAudit.Diff.Hunk
import Mathlib.Data.List.Basic

/-!
What a script says about its two lists. The script that is made between two lists
has them as its views, whatever runs the search finds; which lines it keeps is a
matter of the search alone. The multiset laws relate what is kept, removed and
added; they decide when a script can do without added lines.
-/
namespace DependencyAudit.Diff

namespace Step
variable {α : Type}

/-- The step that leads back. -/
def reverse : Step α → Step α
  | keep a => keep a
  | remove a => add a
  | add a => remove a

@[simp] theorem isChange_reverse (s : Step α) : s.reverse.isChange = s.isChange := by
  cases s <;> rfl

@[simp] theorem old?_reverse (s : Step α) : s.reverse.old? = s.new? := by
  cases s <;> rfl

@[simp] theorem new?_reverse (s : Step α) : s.reverse.new? = s.old? := by
  cases s <;> rfl

def added? : Step α → Option α
  | add a => some a
  | _ => none

end Step

namespace Script
variable {α : Type}

def kept (s : Script α) : List α :=
  s.filterMap fun
    | .keep a => some a
    | _ => none

def added (s : Script α) : List α := s.filterMap Step.added?

/-- The removed elements with their places in the old list, which starts at `n`. -/
def removedFrom (n : Nat) : Script α → List (Nat × α)
  | [] => []
  | .keep _ :: s => removedFrom (n + 1) s
  | .remove a :: s => (n, a) :: removedFrom (n + 1) s
  | .add _ :: s => removedFrom n s

section Views

theorem old_cons (step : Step α) (s : Script α) :
    Script.old (step :: s) = step.old?.toList ++ s.old := by
  cases step <;> rfl

theorem new_cons (step : Step α) (s : Script α) :
    Script.new (step :: s) = step.new?.toList ++ s.new := by
  cases step <;> rfl

theorem old_append (s t : Script α) : Script.old (s ++ t) = s.old ++ t.old :=
  List.filterMap_append

theorem new_append (s t : Script α) : Script.new (s ++ t) = s.new ++ t.new :=
  List.filterMap_append

theorem added_append (s t : Script α) : Script.added (s ++ t) = s.added ++ t.added :=
  List.filterMap_append

theorem old_map_keep (l : List α) : Script.old (l.map Step.keep) = l := by
  induction l with
  | nil => rfl
  | cons a l ih => simpa [old, Step.old?] using ih

theorem new_map_keep (l : List α) : Script.new (l.map Step.keep) = l := by
  induction l with
  | nil => rfl
  | cons a l ih => simpa [new, Step.new?] using ih

theorem added_map_keep (l : List α) : Script.added (l.map Step.keep) = [] := by
  simp [added, Step.added?]

theorem old_replacement (a b : List α) :
    Script.old (a.map Step.remove ++ b.map Step.add) = a := by
  rw [old_append]
  have removes : Script.old (a.map Step.remove) = a := by
    induction a with
    | nil => rfl
    | cons x a ih => simpa [old, Step.old?] using ih
  rw [removes]
  simp [old, Step.old?]

theorem new_replacement (a b : List α) :
    Script.new (a.map Step.remove ++ b.map Step.add) = b := by
  rw [new_append]
  have adds : Script.new (b.map Step.add) = b := by
    induction b with
    | nil => rfl
    | cons x b ih => simpa [new, Step.new?] using ih
  rw [adds]
  simp [new, Step.new?]

theorem added_replacement (a b : List α) :
    Script.added (a.map Step.remove ++ b.map Step.add) = b := by
  rw [added_append]
  have adds : Script.added (b.map Step.add) = b := by
    induction b with
    | nil => rfl
    | cons x b ih => simpa [added, Step.added?] using ih
  rw [adds]
  simp [added, Step.added?]

theorem old_map_reverse (s : Script α) : Script.old (s.map Step.reverse) = s.new := by
  simp only [old, new, List.filterMap_map]
  congr 1
  funext step
  exact step.old?_reverse

theorem new_map_reverse (s : Script α) : Script.new (s.map Step.reverse) = s.old := by
  simp only [old, new, List.filterMap_map]
  congr 1
  funext step
  exact step.new?_reverse

variable [DecidableEq α]

/-- The search only decides what is kept; the views are the two lists in any case. -/
theorem old_between (popular a b : List α) : (between popular a b).old = a := by
  induction a, b using between.induct popular with
  | case1 a b s found _ _ ihl ihr =>
      rw [between, found]
      simp only [old_append, old_map_keep, ihl, ihr]
      exact s.before_eq.symm
  | case2 a b found =>
      rw [between, found]
      exact old_replacement a b

theorem new_between (popular a b : List α) : (between popular a b).new = b := by
  induction a, b using between.induct popular with
  | case1 a b s found _ _ ihl ihr =>
      rw [between, found]
      simp only [new_append, new_map_keep, ihl, ihr]
      exact s.after_eq.symm
  | case2 a b found =>
      rw [between, found]
      exact new_replacement a b

end Views

section Multisets

theorem old_perm (s : Script α) (n : Nat) :
    s.old.Perm (s.kept ++ (s.removedFrom n).map (·.2)) := by
  induction s generalizing n with
  | nil => exact .refl _
  | cons step s ih =>
      cases step with
      | keep a => exact (ih (n + 1)).cons a
      | remove a => exact ((ih (n + 1)).cons a).trans List.perm_middle.symm
      | add a => exact ih n

theorem new_perm (s : Script α) : s.new.Perm (s.kept ++ s.added) := by
  induction s with
  | nil => exact .refl _
  | cons step s ih =>
      cases step with
      | keep a => exact ih.cons a
      | remove a => exact ih
      | add a => exact (ih.cons a).trans List.perm_middle.symm

variable {live : α → Bool} {s : Script α}

theorem kept_filter (h : ∀ x ∈ s.new, live x) : s.kept.filter live = s.kept := by
  rw [List.filter_eq_self]
  intro x hx
  exact h x ((new_perm s).mem_iff.2 (List.mem_append_left _ hx))

theorem live_old_perm (h : ∀ x ∈ s.new, live x) (n : Nat) :
    (s.old.filter live).Perm (s.kept ++ ((s.removedFrom n).map (·.2)).filter live) := by
  have views := (old_perm s n).filter live
  rwa [List.filter_append, kept_filter h] at views

/-- A script to the live elements of its old list adds what it removes too much. -/
theorem added_perm (h : s.new = s.old.filter live) (n : Nat) :
    s.added.Perm (((s.removedFrom n).map (·.2)).filter live) := by
  have hlive : ∀ x ∈ s.new, live x := by
    intro x hx
    rw [h] at hx
    exact (List.mem_filter.1 hx).2
  have balance := (new_perm s).symm.trans (h ▸ live_old_perm hlive n)
  exact (List.perm_append_left_iff _).1 balance

theorem added_ne_nil (h : ∀ x ∈ s.new, live x) (more : (s.old.filter live).length < s.new.length) :
    s.added ≠ [] := by
  intro nothing
  have olds := (live_old_perm h 0).length_eq
  have news := (new_perm s).length_eq
  simp only [nothing, List.length_append, List.length_nil] at olds news
  omega

end Multisets

section Places

theorem le_of_mem_removedFrom {s : Script α} {n m : Nat} {a : α} (h : (m, a) ∈ s.removedFrom n) :
    n ≤ m ∧ s.old[m - n]? = some a := by
  induction s generalizing n with
  | nil => cases h
  | cons step s ih =>
      cases step with
      | keep b =>
          have ⟨le, eq⟩ := ih (n := n + 1) h
          refine ⟨by omega, ?_⟩
          have place : m - n = m - (n + 1) + 1 := by omega
          rw [place]
          exact eq
      | remove b =>
          rcases List.mem_cons.1 h with here | later
          · cases here
            refine ⟨Nat.le_refl _, ?_⟩
            rw [Nat.sub_self]
            rfl
          · have ⟨le, eq⟩ := ih later
            refine ⟨by omega, ?_⟩
            have place : m - n = m - (n + 1) + 1 := by omega
            rw [place]
            exact eq
      | add b => exact ih h

theorem mem_removedFrom {s : Script α} {n i : Nat} {a : α} (h : s.old[i]? = some a)
    (gone : a ∉ s.new) : (n + i, a) ∈ s.removedFrom n := by
  induction s generalizing n i with
  | nil => cases h
  | cons step s ih =>
      cases step with
      | keep b =>
          have hne : b ≠ a ∧ a ∉ Script.new s := by
            refine ⟨?_, fun later => gone (List.mem_cons_of_mem b later)⟩
            rintro rfl
            exact gone List.mem_cons_self
          cases i with
          | zero => exact absurd (Option.some.inj h) hne.1
          | succ i =>
              have later := ih (n := n + 1) (i := i) h hne.2
              rwa [Nat.add_assoc, Nat.add_comm 1] at later
      | remove b =>
          cases i with
          | zero =>
              cases Option.some.inj h
              exact List.mem_cons_self
          | succ i =>
              have later := ih (n := n + 1) (i := i) h gone
              rw [Nat.add_assoc, Nat.add_comm 1] at later
              exact List.mem_cons_of_mem _ later
      | add b =>
          exact ih h fun later => gone (List.mem_cons_of_mem b later)

theorem remove_not_mem {s : Script α} {n : Nat} {a : α} (h : s.removedFrom n = []) :
    Step.remove a ∉ s := by
  induction s generalizing n with
  | nil => exact List.not_mem_nil
  | cons step s ih =>
      intro member
      cases step with
      | remove b => cases h
      | keep b | add b =>
          rcases List.mem_cons.1 member with here | later
          · cases here
          · exact ih h later

end Places

end Script
end DependencyAudit.Diff
