import DependencyAudit.Declaration.Reading
import DependencyAudit.Verdict.Basic
import DependencyAudit.Verdict.Tables

/-!
Verdicts by name alone, and verdicts by evidence. Names are tried against the
families in a fixed order and the first that fits decides. With evidence a
declaration is flagged exactly if its coordinate is not among those resolved;
the name then decides only how an unflagged one is described.
-/

namespace DependencyAudit

def matchesAny (fragments : List String) (name : String) : Bool :=
  let s := Text.lower name.toList
  fragments.any fun f => Text.occursIn (Text.lower f.toList) s

inductive Rule
  | essential
  | test
  | largeUtility
  | framework
  | unknown
deriving DecidableEq, Repr

namespace Rule

def category : Rule → Category
  | essential => .essential
  | test => .test
  | largeUtility => .likelyUnused
  | framework => .framework
  | unknown => .unknown

def confidence : Rule → Nat
  | essential => 100
  | test => 90
  | largeUtility => 75
  | framework => 85
  | unknown => 50

def size : Rule → Float
  | essential => 0.1
  | test => 0.1
  | largeUtility => 4.5
  | framework => 2.5
  | unknown => 1.5

def of (families : Families) (d : Declaration) : Rule :=
  if matchesAny families.essential (d.coordinate.group ++ ":" ++ d.coordinate.artifact) then
    essential
  else if d.kind = .test then test
  else if matchesAny families.largeUtility d.coordinate.artifact then largeUtility
  else if matchesAny families.framework d.coordinate.artifact then framework
  else unknown

/-- A dependency that the build resolved is not unused, whatever its name says. -/
def resolved : Rule → Rule
  | largeUtility => unknown
  | r => r

end Rule

def defaultSize : Float := 1.5

def SizeTable.estimate (sizes : SizeTable) (artifact : String) : Float :=
  match sizes.find? fun entry => matchesAny [entry.1] artifact with
  | some entry => entry.2
  | none => defaultSize

def Recommendation.of (size : Float) (kind : Kind) : Recommendation :=
  if 5 < size then removeHighImpact
  else if 2 < size then reviewLarge
  else if kind = .test then testOnly
  else keep

/-- Confidence in a flag that rests on evidence. -/
def absentConfidence : Nat := 90

namespace Verdict

def byName (families : Families) (d : Declaration) : Verdict :=
  let rule := Rule.of families d
  { declaration := d
    category := rule.category
    confidence := some (.int rule.confidence)
    size := some (.real rule.size)
    flagged := rule.category = .likelyUnused
    recommendation := none
    mode := .heuristic }

def byEvidence (tables : Tables) (evidence : List String) (d : Declaration) : Verdict :=
  let size := tables.sizes.estimate d.coordinate.artifact
  let flagged := !evidence.contains d.coordinate.text
  let rule := (Rule.of tables.families d).resolved
  { declaration := d
    category := if flagged then .likelyUnused else rule.category
    confidence := some (.int (if flagged then absentConfidence else rule.confidence))
    size := some (.real size)
    flagged
    recommendation := some (.of size d.kind)
    mode := .evidence }

/-- No evidence is different from evidence that nothing was resolved. -/
def of (tables : Tables) (evidence : Option (List String)) (d : Declaration) : Verdict :=
  match evidence with
  | none => byName tables.families d
  | some resolved => byEvidence tables resolved d

end Verdict

def audit (tables : Tables) (evidence : Option (List String)) (lines : List String) :
    List Verdict :=
  (Declaration.ofLines lines).map (Verdict.of tables evidence)

def Mode.of (evidence : Option (List String)) : Mode :=
  if evidence.isSome then .evidence else .heuristic

def classifiedText (count : Nat) (mode : Mode) : String :=
  s!"classified {count} declarations ({mode.name} mode)"

end DependencyAudit
