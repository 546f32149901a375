import DependencyAudit.Command.Session
import DependencyAudit.Report.Patch
import DependencyAudit.Verdict.Classify

/-!
The audit of a script. What is reported, and how, is settled before anything is
printed or written; the totals always cover every declaration, even if only
flagged ones are shown.
-/

namespace DependencyAudit.Command

inductive Format
  | table
  | markdown
  | json
deriving DecidableEq, Repr

def Format.ofName? (s : String) : Option Format :=
  [("table", Format.table), ("markdown", .markdown), ("json", .json)].lookup s

structure Audit where
  request : AuditRequest
  lines : List String
  basis : Basis
  verdicts : List Verdict
  format : Format
  showAll : Bool
  summary : Summary

namespace Audit

def reportFault (f : SummaryFault) : Stop := .crash (.report (.summary f))

def prepare (s : Session) (r : AuditRequest) : Except Stop Audit := do
  let format ←
    match Format.ofName? (s.chosen r.format "report" "output_format" "table") with
    | some f => .ok f
    | none => .error (.bad .format)
  let showAll := r.showAll.getD (((s.setting? "report" "show_all").map Tree.isGiven).getD true)
  let lines ← s.readScript r.manifest
  let basis ← Basis.settle s r.mode r.evidence
  let verdicts := audit s.tables basis.evidence? lines
  let summary ← (Summary.ofVerdicts verdicts).mapError reportFault
  return ⟨r, lines, basis, verdicts, format, showAll, summary⟩

def report (a : Audit) : Report where
  manifest := a.request.manifest.text
  mode := a.basis.mode
  evidence := a.basis.path?.map Path.text
  verdicts := a.verdicts

def shown (a : Audit) : List Verdict :=
  if a.showAll then a.verdicts else a.verdicts.filter (·.flagged)

def patch (a : Audit) : String := removalPatch a.lines a.verdicts a.request.manifest.name

def page (a : Audit) : Piece := (a.report.markdown !a.showAll).mapError .report

/-- The report as a document, with the patch if it is asked for. -/
def document (a : Audit) : Except Crash Tree :=
  (a.report.entries.mapError fun f => .report (.summary f)).map fun entries =>
    .table (entries ++ if a.request.patch then [("patch", .text a.patch)] else [])

/-- A report is a document if the run or the format asks for one. -/
def isDocument (s : Session) (a : Audit) : Bool := s.general.json || a.format = .json

/-- What is said before the report when the run is to be verbose. -/
def log (s : Session) (a : Audit) : List Piece :=
  if s.general.verbose && !s.general.json then
    let name := a.request.manifest.name
    s.markup s!"{a.verdicts.length} declarations in {name}, mode={a.basis.mode.name}"
      :: a.verdicts.map fun v =>
        match v.sentence with
        | .ok text => s.line text
        | .error f => .error (.report (.figure f))
  else []

/-- What is written to a file: the document or the page. -/
def content (s : Session) (a : Audit) : Piece :=
  if a.isDocument s then a.document.bind (documentText .file) else a.page

def write (s : Session) (a : Audit) : Except Crash FileTree :=
  match a.request.outputFile with
  | none => .ok s.files
  | some path => do
    let content ← a.content s
    (s.files.save s.env path content).mapError .file

/-! ## Plain output -/

def figureCrash (f : FigureFault) : Crash := .report (.figure f)

def plainSize (v : Verdict) : Piece :=
  match v.size with
  | none => .ok missingFigure
  | some n => (n.placed 1).mapError fun f => figureCrash (.tooLarge f)

def plainCells (v : Verdict) : Except Crash (List String) :=
  (plainSize v).map fun size =>
    [toString v.line, v.coordinate, v.declaration.kind.name, v.category.name,
      (Tree.ofOption Number.toTree v.confidence).plain, size, if v.flagged then "yes" else "no",
      (v.recommendation.map Recommendation.name).getD "-"]

def plainHead : List String :=
  ["line", "coordinate", "kind", "usage", "confidence", "size_mb", "flagged", "recommendation"]

def plainPieces (a : Audit) : List Piece :=
  .ok (Console.echoCells plainHead) ::
    a.shown.map (fun v => (plainCells v).map Console.echoCells) ++
    [.ok (Console.echoCells ["total", toString a.summary.total]),
      .ok (Console.echoCells ["flagged", toString a.summary.flagged]),
      .ok (Console.echoCells ["savings_mb", String.ofList (fixedText 1 a.summary.savings)])] ++
    if a.request.patch then [.ok (Console.echoed a.patch)] else []

/-! ## Console output -/

def columns (mode : Mode) : List Console.Column :=
  [⟨"Line", true⟩, ⟨"Dependency", false⟩, ⟨"Kind", false⟩, ⟨"Usage", false⟩, ⟨"Confidence", true⟩,
    ⟨"Size", true⟩] ++
    if mode = .evidence then [⟨"Recommendation", false⟩] else []

def tableCells (mode : Mode) (v : Verdict) : Except FigureFault (List String) := do
  let confidence ← confidenceText v.confidence
  let size ← (sizeText v.size).mapError .tooLarge
  return [toString v.line, v.coordinate, v.declaration.kind.name, v.category.markup, confidence,
      size]
    ++ if mode = .evidence then [recommendationText v.recommendation] else []

def table (a : Audit) : Except FigureFault Console.Table := do
  let rows ← a.shown.mapM (tableCells a.basis.mode)
  return ⟨s!"Dependencies in {a.request.manifest.name} ({a.summary.total} declared)",
    columns a.basis.mode, rows⟩

def totalsLine (s : Session) (a : Audit) : Piece :=
  match sizeText (some (.real a.summary.savings)) with
  | .ok savings =>
    s.markup (s!"Flagged {a.summary.flagged} of {a.summary.total} declarations, " ++
      s!"estimated savings {savings}")
  | .error f => .error (figureCrash (.tooLarge f))

def consoleReport (s : Session) (a : Audit) : List Piece :=
  if a.format = .markdown then [a.page.bind s.line]
  else
    match a.table with
    | .ok t => [s.table t, a.totalsLine s]
    | .error f => [.error (figureCrash f)]

def consolePieces (s : Session) (a : Audit) : List Piece :=
  a.consoleReport s
    ++ (if a.request.patch then
        [s.line (if a.patch = "" then "Nothing to remove." else a.patch)]
      else [])
    ++ (a.request.outputFile.map fun path => s.markup s!"Report written to: {path.text}").toList

def pieces (s : Session) (a : Audit) : List Piece :=
  if a.isDocument s then [a.document.bind s.document]
  else if s.general.plain then a.plainPieces
  else a.consolePieces s

def run (s : Session) (r : AuditRequest) : Outcome :=
  match prepare s r with
  | .error stop => .stopped s.files stop
  | .ok a => .writing s.files (a.log s) (a.write s) (a.pieces s)

end Audit
end DependencyAudit.Command
