import DependencyAudit.Diff.Shared

/-!
Scripts that turn one list into another, an element at a time. The old and the
new list are the two views of a script. A script is made by keeping a shared run
and going on to the left and to the right of it; where nothing more is shared,
all that is left of the old list goes before all that is left of the new comes.
-/

namespace DependencyAudit.Diff

inductive Step (α : Type)
  | keep (a : α)
  | remove (a : α)
  | add (a : α)
deriving DecidableEq, Repr

abbrev Script (α : Type) := List (Step α)

namespace Step

variable {α : Type}

def isChange : Step α → Bool
  | keep _ => false
  | _ => true

def old? : Step α → Option α
  | keep a => some a
  | remove a => some a
  | add _ => none

def new? : Step α → Option α
  | keep a => some a
  | remove _ => none
  | add a => some a

end Step

namespace Script

variable {α : Type}

def old (s : Script α) : List α := s.filterMap Step.old?

def new (s : Script α) : List α := s.filterMap Step.new?

variable [DecidableEq α]

/-- Elements of a long list that make up more than a hundredth of it. -/
def popular (b : List α) : List α :=
  if b.length < 200 then []
  else b.eraseDups.filter fun y => b.length / 100 + 1 < b.count y

/-- The script between two lists, with no shared run started from a popular element. -/
def between (popular a b : List α) : Script α :=
  match Shared.find? popular a b with
  | some s =>
    have := s.leftBefore_lt
    have := s.rightBefore_lt
    between popular s.leftBefore s.leftAfter ++ s.run.map Step.keep
      ++ between popular s.rightBefore s.rightAfter
  | none => a.map Step.remove ++ b.map Step.add
termination_by a.length

def ofLists (a b : List α) : Script α := between (popular b) a b

end Script
end DependencyAudit.Diff
