import DependencyAudit.Diff.Hunk
import DependencyAudit.Report.Edit

/-!
The patch that takes out every line with a flagged declaration on it. It is only
suggested; the script itself is left as it is.
-/

namespace DependencyAudit

def isLineBreak (c : Char) : Bool := c = '\n' || c = '\r'

/-- A line with exactly one line feed at its end. -/
def endedLine (line : String) : String :=
  String.ofList (line.toList.reverse.dropWhile isLineBreak).reverse ++ "\n"

/-- The lines whose numbers, counted up from `first`, are not listed. -/
def remainingFrom {α : Type} (removed : List Int) (first : Int) : List α → List α
  | [] => []
  | line :: rest =>
    if removed.contains first then remainingFrom removed (first + 1) rest
    else line :: remainingFrom removed (first + 1) rest

def remaining {α : Type} (removed : List Int) (lines : List α) : List α :=
  remainingFrom removed 1 lines

def removalPatch (lines : List String) (verdicts : List Verdict) (name : String) : String :=
  let removed := removedLines verdicts
  if removed.isEmpty then ""
  else
    let old := lines.map endedLine
    Diff.unified ("a/" ++ name) ("b/" ++ name) old (remaining removed old)

end DependencyAudit
