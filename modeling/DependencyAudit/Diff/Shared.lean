/-!
Runs that two lists share. The longest shared run of lines that are not popular
is looked for, the first in the first list and then in the second list winning;
it is then drawn out at both ends over whatever else is equal there. Everything
that is found is checked, so a shared run carries the proof that it is one.
-/

namespace DependencyAudit.Diff

variable {α : Type} [DecidableEq α]

structure Block where
  before : Nat
  after : Nat
  length : Nat
deriving DecidableEq, Repr

/-- Lengths of the runs that end at `x` and at each element of `b`, from those
that end just before `x`. -/
def runsAt (x : α) (diagonal : Nat) : List Nat → List α → List Nat
  | above :: rest, y :: ys => (if x = y then diagonal + 1 else 0) :: runsAt x above rest ys
  | _, _ => []

def noRuns (b : List α) : List Nat := b.map fun _ => 0

/-- The longer of a block and the runs of one row; of two as long, the earlier. -/
def longestInRow (i : Nat) (longest : Block) (j : Nat) : List Nat → Block
  | [] => longest
  | k :: rest =>
    longestInRow i (if longest.length < k then ⟨i + 1 - k, j + 1 - k, k⟩ else longest) (j + 1) rest

def longestFrom (popular b : List α) (i : Nat) (above : List Nat) (longest : Block) :
    List α → Block
  | [] => longest
  | x :: rest =>
    let row := if popular.contains x then noRuns b else runsAt x 0 above b
    longestFrom popular b (i + 1) row (longestInRow i longest 0 row) rest

def longest (popular a b : List α) : Block := longestFrom popular b 0 (noRuns b) ⟨0, 0, 0⟩ a

def commonLength : List α → List α → Nat
  | x :: xs, y :: ys => if x = y then commonLength xs ys + 1 else 0
  | _, _ => 0

namespace Block

def drawnBack (a b : List α) (m : Block) : Block :=
  let n := commonLength (a.take m.before).reverse (b.take m.after).reverse
  ⟨m.before - n, m.after - n, m.length + n⟩

def drawnOn (a b : List α) (m : Block) : Block :=
  let n := commonLength (a.drop (m.before + m.length)) (b.drop (m.after + m.length))
  ⟨m.before, m.after, m.length + n⟩

end Block

/-- A run that two lists share, with what stands around it in each. -/
structure Shared (a b : List α) where
  run : List α
  leftBefore : List α
  rightBefore : List α
  leftAfter : List α
  rightAfter : List α
  before_eq : a = leftBefore ++ run ++ rightBefore
  after_eq : b = leftAfter ++ run ++ rightAfter
  run_ne_nil : run ≠ []

omit [DecidableEq α] in
theorem parts_eq (a : List α) (i k : Nat) :
    a = a.take i ++ (a.drop i).take k ++ a.drop (i + k) := by
  rw [List.append_assoc, ← List.drop_drop, List.take_append_drop, List.take_append_drop]

def Block.shared? (m : Block) (a b : List α) : Option (Shared a b) :=
  if h : (a.drop m.before).take m.length ≠ []
      ∧ (b.drop m.after).take m.length = (a.drop m.before).take m.length then
    some {
      run := (a.drop m.before).take m.length
      leftBefore := a.take m.before
      rightBefore := a.drop (m.before + m.length)
      leftAfter := b.take m.after
      rightAfter := b.drop (m.after + m.length)
      before_eq := parts_eq a m.before m.length
      after_eq := h.2 ▸ parts_eq b m.after m.length
      run_ne_nil := h.1 }
  else none

namespace Shared

def find? (popular a b : List α) : Option (Shared a b) :=
  (((longest popular a b).drawnBack a b).drawnOn a b).shared? a b

variable {a b : List α}

omit [DecidableEq α] in
theorem leftBefore_lt (s : Shared a b) : s.leftBefore.length < a.length := by
  have ne := List.length_pos_iff.2 s.run_ne_nil
  have eq := congrArg List.length s.before_eq
  simp only [List.length_append] at eq
  omega

omit [DecidableEq α] in
theorem rightBefore_lt (s : Shared a b) : s.rightBefore.length < a.length := by
  have ne := List.length_pos_iff.2 s.run_ne_nil
  have eq := congrArg List.length s.before_eq
  simp only [List.length_append] at eq
  omega

end Shared
end DependencyAudit.Diff
