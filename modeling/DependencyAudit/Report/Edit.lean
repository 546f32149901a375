import DependencyAudit.Verdict.Basic

/-!
Removal edits: the lines of a script that go when every flagged declaration is
taken out. A line goes once, however many flagged declarations stand on it.
-/

namespace DependencyAudit

structure Edit where
  line : Int
  text : String
  coordinate : String
  size : Option Number
deriving DecidableEq

namespace Edit

def ofVerdict (v : Verdict) : Edit := ⟨v.line, v.declaration.source, v.coordinate, v.size⟩

/-- The edits that are still to be listed when these lines are listed already. -/
def ofVerdictsAfter (listed : List Int) : List Verdict → List Edit
  | [] => []
  | v :: rest =>
    if v.flagged && !listed.contains v.line then
      ofVerdict v :: ofVerdictsAfter (v.line :: listed) rest
    else ofVerdictsAfter listed rest

/-- The first flagged verdict of each line, in the order of the verdicts. -/
def ofVerdicts (verdicts : List Verdict) : List Edit := ofVerdictsAfter [] verdicts

end Edit

def removedLines (verdicts : List Verdict) : List Int := (Edit.ofVerdicts verdicts).map (·.line)

end DependencyAudit
