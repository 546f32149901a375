import DependencyAudit.Diff.Script

/-!
Unified diffs. A hunk is a longest stretch of a script in which every kept line
stands within the context of a change; its head says how many lines of the old
and of the new text it covers, and which is the first.
-/

namespace DependencyAudit.Diff

def contextSize : Nat := 3

/-- Steps, each with whether it is shown, when `left` more kept ones are shown anyway. -/
def shownFrom {α : Type} (left : Nat) : Script α → List (Step α × Bool)
  | [] => []
  | s :: rest =>
    if s.isChange then (s, true) :: shownFrom contextSize rest
    else (s, 0 < left || (rest.take contextSize).any Step.isChange) :: shownFrom (left - 1) rest

/-- A stretch of a script, and how many old and new lines stand before it. -/
structure Hunk (α : Type) where
  before : Nat
  after : Nat
  steps : Script α
deriving DecidableEq

namespace Hunk

variable {α : Type}

/-- A stretch that is empty makes no hunk. -/
def close (before after : Nat) (found : Script α × List (Hunk α)) : List (Hunk α) :=
  if found.1.isEmpty then found.2 else ⟨before, after, found.1⟩ :: found.2

def collect (before after : Nat) : List (Step α × Bool) → Script α × List (Hunk α)
  | [] => ([], [])
  | (s, shown) :: rest =>
    let before := before + s.old?.toList.length
    let after := after + s.new?.toList.length
    let found := collect before after rest
    if shown then (s :: found.1, found.2) else ([], close before after found)

def ofScript (s : Script α) : List (Hunk α) := close 0 0 (collect 0 0 (shownFrom 0 s))

/-- The first line and the number of lines. One line needs no number; no lines
stand behind the line that is named. -/
def rangeText (skipped count : Nat) : String :=
  if count = 1 then s!"{skipped + 1}"
  else if count = 0 then s!"{skipped},0"
  else s!"{skipped + 1},{count}"

def head (h : Hunk α) : String :=
  let old := rangeText h.before h.steps.old.length
  let new := rangeText h.after h.steps.new.length
  s!"@@ -{old} +{new} @@\n"

end Hunk

def Step.text : Step String → String
  | .keep line => " " ++ line
  | .remove line => "-" ++ line
  | .add line => "+" ++ line

def Hunk.text (h : Hunk String) : String := h.head ++ String.join (h.steps.map Step.text)

/-- The difference between two texts by their lines; nothing if there is none. -/
def unified (oldName newName : String) (old new : List String) : String :=
  match Hunk.ofScript (Script.ofLists old new) with
  | [] => ""
  | hunks => s!"--- {oldName}\n+++ {newName}\n" ++ String.join (hunks.map Hunk.text)

end DependencyAudit.Diff
