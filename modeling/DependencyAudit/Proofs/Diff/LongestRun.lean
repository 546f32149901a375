import DependencyAudit.Diff.Shared
import Mathlib.Data.List.Basic

/-!
The run that the search starts from. Row by row the search computes, for each
pair of places, how long the run is that ends there; it ends up with a longest
run, and of the longest ones with the first by its place in the first list and
then in the second. Popular elements end a run and start none.
-/
namespace DependencyAudit.Diff
variable {α : Type}

/-- A run of elements that are not popular, at place `i` of `a` and `j` of `b`. -/
structure CommonRun (popular a b : List α) (i j : Nat) (run : List α) : Prop where
  before : ∃ u v, a = u ++ run ++ v ∧ u.length = i
  after : ∃ u v, b = u ++ run ++ v ∧ u.length = j
  usual : ∀ x ∈ run, x ∉ popular

/-- A longest common run, and the first of those. -/
structure FirstLongest (popular a b : List α) (i j : Nat) (run : List α) : Prop where
  common : CommonRun popular a b i j run
  first : ∀ i' j' r, CommonRun popular a b i' j' r → r ≠ [] →
    r.length < run.length ∨ r.length = run.length ∧ (i < i' ∨ i = i' ∧ j ≤ j')

namespace CommonRun
variable {popular a b run : List α} {i j : Nat}

theorem le_before (h : CommonRun popular a b i j run) : i + run.length ≤ a.length := by
  obtain ⟨u, v, rfl, rfl⟩ := h.before
  simp only [List.length_append]
  omega

theorem le_after (h : CommonRun popular a b i j run) : j + run.length ≤ b.length := by
  obtain ⟨u, v, rfl, rfl⟩ := h.after
  simp only [List.length_append]
  omega

end CommonRun

variable [DecidableEq α]

section CommonLength

theorem exists_common (x y : List α) :
    ∃ c u v, x = c ++ u ∧ y = c ++ v ∧ c.length = commonLength x y ∧
      ∀ z u' v', u = z :: u' → v ≠ z :: v' := by
  fun_induction commonLength x y with
  | case1 xs y ys ih =>
      obtain ⟨c, u, v, rfl, rfl, len, differ⟩ := ih
      exact ⟨y :: c, u, v, rfl, rfl, by simp [len], differ⟩
  | case2 x xs y ys ne =>
      refine ⟨[], _, _, rfl, rfl, rfl, ?_⟩
      intro z u' v' hx hy
      exact ne ((List.cons.inj hx).1.trans (List.cons.inj hy).1.symm)
  | case3 x y stop =>
      refine ⟨[], _, _, rfl, rfl, rfl, ?_⟩
      intro z u' v' hx hy
      exact stop z u' z v' hx hy

theorem le_commonLength {c x y : List α} (hx : c <+: x) (hy : c <+: y) :
    c.length ≤ commonLength x y := by
  induction c generalizing x y with
  | nil => exact Nat.zero_le _
  | cons z c ih =>
      obtain ⟨u, rfl⟩ := hx
      obtain ⟨v, rfl⟩ := hy
      simp only [List.cons_append, commonLength, ite_true, List.length_cons]
      exact Nat.succ_le_succ (ih (List.prefix_append c u) (List.prefix_append c v))

end CommonLength

section Rows

/-- The elements at the front of `p` before the first popular one. -/
def usualFront (popular p : List α) : List α := p.takeWhile fun x => !popular.contains x

/-- For each element of a list that stands behind `q`, read backwards, the length
of the run that ends with it and with the front of `p`, also read backwards. -/
def runEnds (p q : List α) : List α → List Nat
  | [] => []
  | y :: ys => commonLength p (y :: q) :: runEnds p (y :: q) ys

theorem noRuns_eq (q b : List α) : noRuns b = runEnds [] q b := by
  induction b generalizing q with
  | nil => rfl
  | cons y b ih =>
      simp only [noRuns, List.map_cons, runEnds, commonLength]
      exact congrArg (0 :: ·) (ih (y :: q))

theorem runsAt_eq (x : α) (p q b : List α) :
    runsAt x (commonLength p q) (runEnds p q b) b = runEnds (x :: p) q b := by
  induction b generalizing q with
  | nil => rfl
  | cons y b ih =>
      simp only [runEnds, runsAt, commonLength]
      exact congrArg (_ :: ·) (ih (y :: q))

theorem row_eq (popular p b : List α) (x : α) :
    (if popular.contains x then noRuns b
      else runsAt x 0 (runEnds (usualFront popular p) [] b) b) =
    runEnds (usualFront popular (x :: p)) [] b := by
  cases known : popular.contains x with
  | true =>
      have front : usualFront popular (x :: p) = [] := by
        simp only [usualFront, List.takeWhile_cons, known, Bool.not_true, Bool.false_eq_true,
          ite_false]
      rw [front, ← noRuns_eq]
      rfl
  | false =>
      have start : commonLength (usualFront popular p) [] = 0 := by
        cases usualFront popular p <;> rfl
      have front : usualFront popular (x :: p) = x :: usualFront popular p := by
        simp only [usualFront, List.takeWhile_cons, known, Bool.not_false, ite_true]
      rw [front, ← runsAt_eq, start]
      rfl

end Rows

section Cells
variable {popular a b : List α}

/-- Pairs of places whose runs have been looked at: `rows` whole rows, and
`columns` places of the next one. Places are counted behind the run. -/
def Seen (rows columns e f : Nat) : Prop := e ≤ rows ∨ e = rows + 1 ∧ f ≤ columns

structure BestSoFar (popular a b : List α) (rows columns : Nat) (m : Block) : Prop where
  common : ∃ run, CommonRun popular a b m.before m.after run ∧ run.length = m.length
  reached : m = ⟨0, 0, 0⟩ ∨
    0 < m.length ∧ Seen rows columns (m.before + m.length) (m.after + m.length)
  first : ∀ i j r, CommonRun popular a b i j r → r ≠ [] →
    Seen rows columns (i + r.length) (j + r.length) →
      r.length < m.length ∨ r.length = m.length ∧ (m.before < i ∨ m.before = i ∧ m.after ≤ j)

/-- The run that ends at a pair of places, as far as it has no popular element. -/
theorem exists_run_at (popular : List α) {u v s t : List α} {x y : α} (ha : a = u ++ x :: v)
    (hb : b = s ++ y :: t) :
    let k := commonLength (usualFront popular (x :: u.reverse)) (y :: s.reverse)
    k ≤ u.length + 1 ∧ k ≤ s.length + 1 ∧
      ∃ run, CommonRun popular a b (u.length + 1 - k) (s.length + 1 - k) run ∧ run.length = k := by
  intro k
  obtain ⟨c, p, q, hp, hq, len, _⟩ :=
    exists_common (usualFront popular (x :: u.reverse)) (y :: s.reverse)
  obtain ⟨p', hp'⟩ := List.takeWhile_prefix (fun z => !popular.contains z) (l := x :: u.reverse)
  have front : x :: u.reverse = c ++ (p ++ p') := by
    rw [← List.append_assoc, ← hp]
    exact hp'.symm
  have lu := congrArg List.length front
  have ls := congrArg List.length hq
  simp only [List.length_cons, List.length_reverse, List.length_append] at lu ls
  have usual : ∀ z ∈ c, z ∉ popular := by
    intro z hz
    have inFront : z ∈ usualFront popular (x :: u.reverse) := by
      rw [hp]
      exact List.mem_append_left p hz
    simpa using List.all_eq_true.1 (List.all_takeWhile (l := x :: u.reverse)) z inFront
  have hu : u ++ [x] = (p ++ p').reverse ++ c.reverse := by
    have back := congrArg List.reverse front
    simpa using back
  have hs : s ++ [y] = q.reverse ++ c.reverse := by
    have back := congrArg List.reverse hq
    simpa using back
  refine ⟨by omega, by omega, c.reverse, ⟨⟨(p ++ p').reverse, v, ?_, ?_⟩, ⟨q.reverse, t, ?_, ?_⟩, ?_⟩, ?_⟩
  · rw [ha, ← hu, List.append_assoc]
    rfl
  · simp only [List.length_reverse, List.length_append]
    omega
  · rw [hb, ← hs, List.append_assoc]
    rfl
  · rw [List.length_reverse]
    omega
  · intro z hz
    exact usual z (List.mem_reverse.1 hz)
  · rw [List.length_reverse]
    exact len

theorem length_le_of_ends {u v s t run : List α} {x y : α} {i j : Nat} (ha : a = u ++ x :: v)
    (hb : b = s ++ y :: t) (h : CommonRun popular a b i j run)
    (hi : i + run.length = u.length + 1) (hj : j + run.length = s.length + 1) :
    run.length ≤ commonLength (usualFront popular (x :: u.reverse)) (y :: s.reverse) := by
  obtain ⟨u', v', eqa, rfl⟩ := h.before
  obtain ⟨s', t', eqb, rfl⟩ := h.after
  have hu : u' ++ run = u ++ [x] := by
    rw [ha, ← List.singleton_append, ← List.append_assoc] at eqa
    exact (List.append_inj_left eqa (by simp; omega)).symm
  have hs : s' ++ run = s ++ [y] := by
    rw [hb, ← List.singleton_append, ← List.append_assoc] at eqb
    exact (List.append_inj_left eqb (by simp; omega)).symm
  rw [← List.length_reverse]
  apply le_commonLength
  · refine List.prefix_of_prefix_length_le ?_ (List.takeWhile_prefix _) ?_
    · refine ⟨u'.reverse, ?_⟩
      simpa using congrArg List.reverse hu
    · have back : x :: u.reverse = run.reverse ++ u'.reverse := by
        simpa using (congrArg List.reverse hu).symm
      rw [back, usualFront, List.takeWhile_append_of_pos]
      · rw [List.length_append]
        omega
      · intro z hz
        simpa using h.usual z (List.mem_reverse.1 hz)
  · refine ⟨s'.reverse, ?_⟩
    simpa using congrArg List.reverse hs

theorem BestSoFar.step {u v s t : List α} {x y : α} {m : Block} (ha : a = u ++ x :: v)
    (hb : b = s ++ y :: t) (h : BestSoFar popular a b u.length s.length m) :
    let k := commonLength (usualFront popular (x :: u.reverse)) (y :: s.reverse)
    BestSoFar popular a b u.length (s.length + 1)
      (if m.length < k then ⟨u.length + 1 - k, s.length + 1 - k, k⟩ else m) := by
  intro k
  obtain ⟨ku, ks, found⟩ := exists_run_at popular ha hb
  change k ≤ _ at ku
  change k ≤ _ at ks
  have older : ∀ i j r, CommonRun popular a b i j r → r ≠ [] →
      Seen u.length (s.length + 1) (i + r.length) (j + r.length) →
      Seen u.length s.length (i + r.length) (j + r.length) ∨
        i + r.length = u.length + 1 ∧ j + r.length = s.length + 1 ∧ r.length ≤ k := by
    intro i j r hr _ seen
    rcases seen with whole | ⟨row, column⟩
    · exact .inl (.inl whole)
    · rcases Nat.lt_or_ge s.length (j + r.length) with new | old
      · have hj : j + r.length = s.length + 1 := by omega
        exact .inr ⟨row, hj, length_le_of_ends ha hb hr row hj⟩
      · exact .inl (.inr ⟨row, old⟩)
  split
  case isTrue longer =>
    refine ⟨found, .inr ⟨by dsimp only; omega, ?_⟩, ?_⟩
    · exact .inr ⟨by dsimp only; omega, by dsimp only; omega⟩
    · intro i j r hr ne seen
      rcases older i j r hr ne seen with old | ⟨hi, hj, le⟩
      · have := h.first i j r hr ne old
        dsimp only
        omega
      · dsimp only
        omega
  case isFalse notLonger =>
    refine ⟨h.common, ?_, ?_⟩
    · rcases h.reached with zero | ⟨pos, seen⟩
      · exact .inl zero
      · refine .inr ⟨pos, ?_⟩
        rcases seen with whole | ⟨row, column⟩
        · exact .inl whole
        · exact .inr ⟨row, by omega⟩
    · intro i j r hr ne seen
      rcases older i j r hr ne seen with old | ⟨hi, hj, le⟩
      · exact h.first i j r hr ne old
      · have pos := List.length_pos_iff.2 ne
        rcases h.reached with rfl | ⟨_, reached⟩
        · simp only at notLonger
          omega
        · rcases reached with whole | ⟨row, column⟩ <;> omega

theorem BestSoFar.row {u v : List α} {x : α} (ha : a = u ++ x :: v) (q ys : List α) (m : Block)
    (hb : b = q.reverse ++ ys) (h : BestSoFar popular a b u.length q.length m) :
    BestSoFar popular a b u.length b.length
      (longestInRow u.length m q.length (runEnds (usualFront popular (x :: u.reverse)) q ys)) := by
  induction ys generalizing q m with
  | nil =>
      have len : q.length = b.length := by simp [hb]
      simpa only [runEnds, longestInRow, ← len] using h
  | cons y ys ih =>
      simp only [runEnds, longestInRow]
      have next := BestSoFar.step ha hb (by simpa using h)
      simp only [List.length_reverse, List.reverse_reverse] at next
      exact ih (y :: q) _ (by simp [hb]) next

omit [DecidableEq α] in
theorem BestSoFar.nextRow {rows : Nat} {m : Block} (h : BestSoFar popular a b rows b.length m) :
    BestSoFar popular a b (rows + 1) 0 m := by
  refine ⟨h.common, ?_, ?_⟩
  · rcases h.reached with zero | ⟨pos, seen⟩
    · exact .inl zero
    · refine .inr ⟨pos, .inl ?_⟩
      rcases seen with whole | ⟨row, _⟩ <;> omega
  · intro i j r hr ne seen
    have pos := List.length_pos_iff.2 ne
    apply h.first i j r hr ne
    rcases seen with whole | ⟨_, column⟩
    · rcases Nat.lt_or_ge rows (i + r.length) with last | before
      · exact .inr ⟨by omega, hr.le_after⟩
      · exact .inl before
    · omega

theorem BestSoFar.rows (u v : List α) (m : Block) (ha : a = u ++ v)
    (h : BestSoFar popular a b u.length 0 m) :
    BestSoFar popular a b a.length 0
      (longestFrom popular b u.length (runEnds (usualFront popular u.reverse) [] b) m v) := by
  induction v generalizing u m with
  | nil =>
      have len : u.length = a.length := by simp [ha]
      simpa only [longestFrom, ← len] using h
  | cons x v ih =>
      simp only [longestFrom, row_eq]
      have next := (BestSoFar.row ha [] b m rfl h).nextRow
      have rest := ih (u ++ [x]) _ (by simp [ha]) (by simpa using next)
      simpa using rest

end Cells

/-- The search finds the first longest run; an empty one stands at the very front. -/
theorem longest_firstLongest (popular a b : List α) :
    let m := longest popular a b
    (∃ run, FirstLongest popular a b m.before m.after run ∧ run.length = m.length) ∧
      (m = ⟨0, 0, 0⟩ ∨ 0 < m.length) := by
  intro m
  have start : BestSoFar popular a b 0 0 ⟨0, 0, 0⟩ := by
    refine ⟨⟨[], ⟨⟨[], a, rfl, rfl⟩, ⟨[], b, rfl, rfl⟩, nofun⟩, rfl⟩, .inl rfl, ?_⟩
    intro i j r _ ne seen
    have pos := List.length_pos_iff.2 ne
    rcases seen with whole | ⟨_, column⟩ <;> omega
  have whole : BestSoFar popular a b a.length 0 m := by
    have rows := BestSoFar.rows [] a _ rfl start
    rw [List.reverse_nil, usualFront, List.takeWhile_nil, ← noRuns_eq] at rows
    exact rows
  obtain ⟨run, common, len⟩ := whole.common
  refine ⟨⟨run, ⟨common, ?_⟩, len⟩, whole.reached.imp_right (·.1)⟩
  intro i j r hr ne
  rw [len]
  exact whole.first i j r hr ne (.inl hr.le_before)

end DependencyAudit.Diff
