import DependencyAudit.Document.Tree
import DependencyAudit.Report.Edit
import DependencyAudit.Report.Summary

/-!
Declarations, verdicts and whole audits as documents.
-/

namespace DependencyAudit

def Declaration.entries (d : Declaration) : Fields :=
  [("group", .text d.coordinate.group), ("artifact", .text d.coordinate.artifact),
    ("version", .text d.coordinate.version), ("coordinate", .text d.coordinate.text),
    ("line_number", .int d.line), ("raw_line", .text d.source), ("config_kind", .text d.kind.name)]

def Declaration.toTree (d : Declaration) : Tree := .table d.entries

namespace Verdict

def entries (v : Verdict) : Fields :=
  v.declaration.entries ++
    [("usage_category", .text v.category.name),
      ("confidence", .ofOption Number.toTree v.confidence),
      ("estimated_size_mb", .ofOption Number.toTree v.size),
      ("is_flagged_for_removal", .bool v.flagged),
      ("recommendation", .ofOption (fun r => .text r.name) v.recommendation),
      ("mode", .text v.mode.name)]

def toTree (v : Verdict) : Tree := .table v.entries

end Verdict

def Edit.toTree (e : Edit) : Tree :=
  .table [("line", .int e.line), ("text", .text e.text), ("coordinate", .text e.coordinate),
    ("estimated_size_mb", .ofOption Number.toTree e.size)]

def countsTree {α : Type} (name : α → String) (counts : List (α × Nat)) : Tree :=
  .table (counts.map fun c => (name c.1, Tree.nat c.2))

def Summary.toTree (s : Summary) : Tree :=
  .table [("total", .nat s.total), ("flagged", .nat s.flagged),
    ("by_category", countsTree Category.name s.categories),
    ("by_recommendation", countsTree Recommendation.name s.recommendations),
    ("estimated_total_mb", .float s.size), ("estimated_savings_mb", .float s.savings)]

/-- An audit as it is reported: of which script, on which basis, with what outcome. -/
structure Report where
  manifest : String
  mode : Mode
  evidence : Option String
  verdicts : List Verdict

namespace Report

def entries (r : Report) : Except SummaryFault Fields := do
  let summary ← Summary.ofVerdicts r.verdicts
  return [("manifest", .text r.manifest), ("mode", .text r.mode.name),
    ("evidence_file", .ofOption .text r.evidence), ("summary", summary.toTree),
    ("results", .list (r.verdicts.map Verdict.toTree)),
    ("removal_edits", .list ((Edit.ofVerdicts r.verdicts).map Edit.toTree))]

def toTree (r : Report) : Except SummaryFault Tree := r.entries.map .table

end Report
end DependencyAudit
