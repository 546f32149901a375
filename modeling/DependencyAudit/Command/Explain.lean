import DependencyAudit.Command.Session
import DependencyAudit.Report.Payload
import DependencyAudit.Verdict.Classify

/-!
The verdict on a single coordinate, with what it rests on. Nothing is read but
the settings and the evidence.
-/

namespace DependencyAudit.Command.Explain

/-- The three parts of a coordinate, none of them empty. -/
def coordinate? (s : String) : Option Coordinate :=
  match (Text.splitAtEach ':' s.toList).map String.ofList with
  | [group, artifact, version] =>
    if group = "" ∨ artifact = "" ∨ version = "" then none else some ⟨group, artifact, version⟩
  | _ => none

/-- The declaration that is judged; it stands on no line. -/
def declaration (r : ExplainRequest) : Except Stop Declaration :=
  match coordinate? r.coordinate, Kind.ofName? r.kind with
  | none, _ => .error (.bad .coordinate)
  | _, none => .error (.bad .kind)
  | some coordinate, some kind => .ok ⟨coordinate, 0, r.coordinate, kind⟩

def verdict (s : Session) (r : ExplainRequest) : Except Stop Verdict := do
  let d ← declaration r
  let basis ← Basis.settle s r.mode r.evidence
  return Verdict.of s.tables basis.evidence? d

def rows (v : Verdict) : Except FigureFault (List (List String)) := do
  let confidence ← confidenceText v.confidence
  let size ← (sizeText v.size).mapError .tooLarge
  return [["Kind", v.declaration.kind.name], ["Usage", v.category.markup],
      ["Confidence", confidence], ["Estimated size", size],
      ["Flagged for removal", if v.flagged then "yes" else "no"]]
    ++ (v.recommendation.map fun r => ["Recommendation", r.label]).toList

def pieces (s : Session) (v : Verdict) : List Piece :=
  if s.general.json then [s.document v.toTree]
  else if s.general.plain then
    v.entries.map fun (key, value) => .ok (Console.echoCells [key, value.plain])
  else
    match rows v with
    | .ok rows =>
      [s.table ⟨s!"{v.declaration.source} ({v.mode.name})", [⟨"Field", false⟩, ⟨"Value", false⟩],
        rows⟩]
    | .error f => [.error (.report (.figure f))]

def run (s : Session) (r : ExplainRequest) : Outcome :=
  match verdict s r with
  | .error stop => .stopped s.files stop
  | .ok v => .ofPieces s.files (pieces s v)

end DependencyAudit.Command.Explain
