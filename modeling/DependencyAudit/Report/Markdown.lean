import DependencyAudit.Report.Figures
import DependencyAudit.Report.Payload

/-!
An audit as a Markdown page: totals, a table of declarations and the suggested
removals. Totals always cover every declaration, even if the table is narrowed
to those that are flagged.
-/

namespace DependencyAudit.Markdown

def escapeBar (c : Char) : List Char := if c = '|' then ['\\', '|'] else [c]

/-- A bar in a cell would end it. -/
def escapeCell (s : String) : String := String.ofList (s.toList.flatMap escapeBar)

inductive Fault
  | summary (f : SummaryFault)
  | figure (f : FigureFault)
deriving DecidableEq, Repr

def Fault.message : Fault → String
  | .summary f => f.message
  | .figure f => f.message

def showsRecommendation (mode : Mode) : Bool := mode = .evidence

def row (cells : List String) : String := "| " ++ " | ".intercalate cells ++ " |"

def header (mode : Mode) : List String :=
  ["Line", "Dependency", "Kind", "Usage", "Confidence", "Size"]
    ++ (if showsRecommendation mode then ["Recommendation"] else [])

def ruler (columns : Nat) : String := "|" ++ "|".intercalate (List.replicate columns "---") ++ "|"

def cells (mode : Mode) (v : Verdict) : Except FigureFault (List String) := do
  let confidence ← confidenceText v.confidence
  let size ← (sizeText v.size).mapError .tooLarge
  return [toString v.line, "`" ++ escapeCell v.coordinate ++ "`", v.declaration.kind.name,
      v.category.label, confidence, size]
    ++ (if showsRecommendation mode then [recommendationText v.recommendation] else [])

def rows (mode : Mode) (verdicts : List Verdict) : Except FigureFault (List String) := do
  let body ← verdicts.mapM fun v => (cells mode v).map row
  return row (header mode) :: ruler (header mode).length :: body

def totals (s : Summary) : Except TooLarge (List String) := do
  let size ← sizeText (some (.real s.size))
  let savings ← sizeText (some (.real s.savings))
  let counted := Category.all.filterMap fun c =>
    (s.categories.find? fun entry => entry.1 = c).map fun entry => s!"- {c.label}: {entry.2}"
  return [s!"- **Declarations:** {s.total}", s!"- **Flagged for removal:** {s.flagged}",
    s!"- **Estimated size:** {size}", s!"- **Estimated savings:** {savings}"] ++ counted

def removal (e : Edit) : String := s!"- line {e.line}: `{e.text}`"

def source (evidence : Option String) : String :=
  match evidence.filter (· ≠ "") with
  | none => ""
  | some name => s!"\n_Resolved evidence: {name}_\n"

def lines (xs : List String) : String := "\n".intercalate xs

end Markdown

def Report.markdown (r : Report) (flaggedOnly : Bool) : Except Markdown.Fault String := do
  let summary ← (Summary.ofVerdicts r.verdicts).mapError .summary
  let shown := if flaggedOnly then r.verdicts.filter (·.flagged) else r.verdicts
  let rows ← (Markdown.rows r.mode shown).mapError .figure
  let totals ← (Markdown.totals summary).mapError fun f => .figure (.tooLarge f)
  let table :=
    if r.verdicts.isEmpty then "No dependency declarations found."
    else if shown.isEmpty then "No declarations flagged for removal."
    else Markdown.lines rows
  let edits := Edit.ofVerdicts r.verdicts
  let removals :=
    if edits.isEmpty then "Nothing to remove." else Markdown.lines (edits.map Markdown.removal)
  return s!"# Dependency audit: {r.manifest}\n\n"
    ++ s!"_Mode: {r.mode.name}_\n{Markdown.source r.evidence}\n"
    ++ s!"## Summary\n\n{Markdown.lines totals}\n\n## Declarations\n\n{table}\n\n"
    ++ s!"## Suggested removals\n\n{removals}\n"

end DependencyAudit
