import DependencyAudit.Proofs.Diff.LongestRun

/-!
The run that the search settles on: the first longest run, drawn out at both ends
as far as the two lists agree. A search that settles on none has seen that the
lists share popular elements at most, and that not even their heads agree.
-/
namespace DependencyAudit.Diff
variable {α : Type}

/-- How two lists look around a run that is drawn out from its `core`. -/
structure Drawn (popular a b leftBefore rightBefore leftAfter rightAfter front core rear : List α) :
    Prop where
  before_eq : a = leftBefore ++ (front ++ core ++ rear) ++ rightBefore
  after_eq : b = leftAfter ++ (front ++ core ++ rear) ++ rightAfter
  first : FirstLongest popular a b (leftBefore ++ front).length (leftAfter ++ front).length core
  atFront : core = [] → leftBefore = [] ∧ leftAfter = [] ∧ front = []
  back : ∀ x u v, leftBefore = u ++ [x] → leftAfter ≠ v ++ [x]
  on : ∀ x u v, rightBefore = x :: u → rightAfter ≠ x :: v

variable [DecidableEq α]

theorem drawn_out {u core v s t : List α} {m : Block} (hu : u.length = m.before)
    (hs : s.length = m.after) (hl : core.length = m.length) :
    ∃ lb front la rear rb ra, u = lb ++ front ∧ s = la ++ front ∧ v = rear ++ rb ∧ t = rear ++ ra ∧
      (m.drawnBack (u ++ core ++ v) (s ++ core ++ t)).drawnOn (u ++ core ++ v) (s ++ core ++ t) =
        ⟨lb.length, la.length, (front ++ core ++ rear).length⟩ ∧
      (∀ x p q, lb = p ++ [x] → la ≠ q ++ [x]) ∧ ∀ x p q, rb = x :: p → ra ≠ x :: q := by
  obtain ⟨c, u', s', eu, es, lenc, differBack⟩ := exists_common u.reverse s.reverse
  obtain ⟨rear, rb, ra, rfl, rfl, lenr, differOn⟩ := exists_common v t
  have hu' : u = u'.reverse ++ c.reverse := by simpa using congrArg List.reverse eu
  have hs' : s = s'.reverse ++ c.reverse := by simpa using congrArg List.reverse es
  refine ⟨u'.reverse, c.reverse, s'.reverse, rear, rb, ra, hu', hs', rfl, rfl, ?_, ?_, differOn⟩
  · have back : m.drawnBack (u ++ core ++ (rear ++ rb)) (s ++ core ++ (rear ++ ra)) =
        ⟨u'.length, s'.length, (c ++ core).length⟩ := by
      have takeU : (u ++ core ++ (rear ++ rb)).take m.before = u := by
        rw [← hu, List.append_assoc, List.take_left]
      have takeS : (s ++ core ++ (rear ++ ra)).take m.after = s := by
        rw [← hs, List.append_assoc, List.take_left]
      have lu := congrArg List.length hu'
      have ls := congrArg List.length hs'
      simp only [List.length_append, List.length_reverse] at lu ls
      simp only [Block.drawnBack, takeU, takeS, ← lenc, List.length_append, Block.mk.injEq]
      omega
    have dropU : (u ++ core ++ (rear ++ rb)).drop (u'.length + (c ++ core).length) =
        rear ++ rb := by
      apply List.drop_left'
      simp only [hu', List.length_append, List.length_reverse]
      omega
    have dropS : (s ++ core ++ (rear ++ ra)).drop (s'.length + (c ++ core).length) =
        rear ++ ra := by
      apply List.drop_left'
      simp only [hs', List.length_append, List.length_reverse]
      omega
    rw [back, Block.drawnOn, dropU, dropS, ← lenr]
    simp only [List.length_append, List.length_reverse]
  · intro x p q hp hq
    refine differBack x p.reverse q.reverse ?_ ?_
    · simpa using congrArg List.reverse hp
    · simpa using congrArg List.reverse hq

theorem exists_drawn (popular a b : List α) :
    ∃ lb rb la ra front core rear, Drawn popular a b lb rb la ra front core rear ∧
      ((longest popular a b).drawnBack a b).drawnOn a b =
        ⟨lb.length, la.length, (front ++ core ++ rear).length⟩ := by
  obtain ⟨⟨core, first, len⟩, start⟩ := longest_firstLongest popular a b
  obtain ⟨u, v, ha, hu⟩ := first.common.before
  obtain ⟨s, t, hb, hs⟩ := first.common.after
  obtain ⟨lb, front, la, rear, rb, ra, eu, es, ev, et, block, back, on⟩ :=
    drawn_out (v := v) (t := t) hu hs len
  rw [← ha, ← hb] at block
  refine ⟨lb, rb, la, ra, front, core, rear, ⟨?_, ?_, ?_, ?_, back, on⟩, block⟩
  · simp [ha, eu, ev]
  · simp [hb, es, et]
  · rwa [← eu, ← es, hu, hs]
  · intro empty
    rcases start with zero | pos
    · have nu : u = [] := List.length_eq_zero_iff.1 (hu.trans (congrArg Block.before zero))
      have ns : s = [] := List.length_eq_zero_iff.1 (hs.trans (congrArg Block.after zero))
      rw [nu] at eu
      rw [ns] at es
      have lefts := List.append_eq_nil_iff.1 eu.symm
      exact ⟨lefts.1, (List.append_eq_nil_iff.1 es.symm).1, lefts.2⟩
    · rw [empty] at len
      rw [← len] at pos
      exact absurd pos (Nat.lt_irrefl 0)

section Split
variable {a b lb run rb la ra : List α}

omit [DecidableEq α] in
private theorem drop_take_run {l : List α} (h : l = lb ++ run ++ rb) :
    (l.drop lb.length).take run.length = run := by
  rw [h, List.append_assoc, List.drop_left, List.take_left]

/-- A block that does lie on a run splits the lists around it, unless the run is empty. -/
theorem shared?_eq (ha : a = lb ++ run ++ rb) (hb : b = la ++ run ++ ra) :
    match Block.shared? ⟨lb.length, la.length, run.length⟩ a b with
    | some s => s.run = run ∧ s.leftBefore = lb ∧ s.rightBefore = rb ∧
        s.leftAfter = la ∧ s.rightAfter = ra
    | none => run = [] := by
  have runA := drop_take_run ha
  have runB := drop_take_run hb
  unfold Block.shared?
  dsimp only
  by_cases empty : run = []
  · rw [dif_neg (by simp [empty])]
    exact empty
  · rw [dif_pos ⟨by rwa [runA], by rw [runA, runB]⟩]
    refine ⟨runA, ?_, ?_, ?_, ?_⟩
    · simp [ha]
    · exact (congrArg _ ha).trans (List.drop_left' (by simp))
    · simp [hb]
    · exact (congrArg _ hb).trans (List.drop_left' (by simp))

end Split

namespace Shared
variable {popular a b : List α}

theorem drawn_of_find? {s : Shared a b} (h : find? popular a b = some s) :
    ∃ front core rear, s.run = front ++ core ++ rear ∧
      Drawn popular a b s.leftBefore s.rightBefore s.leftAfter s.rightAfter front core rear := by
  obtain ⟨lb, rb, la, ra, front, core, rear, drawn, block⟩ := exists_drawn popular a b
  have split := shared?_eq drawn.before_eq drawn.after_eq
  rw [← block] at split
  rw [find?] at h
  rw [h] at split
  obtain ⟨run, rfl, rfl, rfl, rfl⟩ := split
  exact ⟨front, core, rear, run, drawn⟩

theorem popular_of_find? (h : find? popular a b = none) :
    (∀ x ∈ a, x ∈ b → x ∈ popular) ∧ ∀ x u v, a = x :: u → b ≠ x :: v := by
  obtain ⟨lb, rb, la, ra, front, core, rear, drawn, block⟩ := exists_drawn popular a b
  have split := shared?_eq drawn.before_eq drawn.after_eq
  rw [← block] at split
  rw [find?] at h
  rw [h] at split
  obtain ⟨fc, noRear⟩ := List.append_eq_nil_iff.1 split
  obtain ⟨_, noCore⟩ := List.append_eq_nil_iff.1 fc
  obtain ⟨rfl, rfl, noFront⟩ := drawn.atFront noCore
  have ha := drawn.before_eq
  have hb := drawn.after_eq
  simp only [noFront, noCore, noRear, List.nil_append] at ha hb
  refine ⟨?_, fun x u v hx hy => drawn.on x u v (ha ▸ hx) (hb ▸ hy)⟩
  intro x hxa hxb
  by_contra usual
  obtain ⟨u, v, eqa⟩ := List.append_of_mem hxa
  obtain ⟨s, t, eqb⟩ := List.append_of_mem hxb
  have single : CommonRun popular a b u.length s.length [x] :=
    ⟨⟨u, v, by simp [eqa], rfl⟩, ⟨s, t, by simp [eqb], rfl⟩, by simpa using usual⟩
  have := drawn.first.first _ _ _ single (by simp)
  simp only [noCore, List.length_cons, List.length_nil] at this
  omega

end Shared
end DependencyAudit.Diff
