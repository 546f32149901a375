import DependencyAudit.Document.Literal
import DependencyAudit.Files.Environment
import DependencyAudit.Verdict.Tables

/-!
Where the evidence is: a path given with the run comes first, then the
environment, then the settings.
-/

namespace DependencyAudit.Settings

inductive EvidencePathFault
  | path (f : PathFault)
  | noEntries (f : NoEntries)
  | notPath (kind : String)
deriving DecidableEq, Repr

def EvidencePathFault.message : EvidencePathFault → String
  | .path f => f.message
  | .noEntries f => f.message
  | .notPath kind => s!"expected str, bytes or os.PathLike object, not {kind}"

def expand (env : Environment) (s : String) : Except EvidencePathFault (Option Path) :=
  match env.expandPath s with
  | .ok p => .ok (some p)
  | .error f => .error (.path f)

/-- An empty or zero setting gives no path. A text with half of a surrogate pair is taken for no
path, like any value that is no text. -/
def evidencePath (env : Environment) (settings : Fields) (explicit : Option Path) :
    Except EvidencePathFault (Option Path) :=
  match explicit with
  | some p =>
    match env.locate p with
    | .ok p => .ok (some p)
    | .error f => .error (.path f)
  | none =>
    match env.given? "DEP_AUDITOR_EVIDENCE_FILE" with
    | some s => expand env s
    | none => do
      let evidence ← (settings.part "evidence").mapError .noEntries
      match evidence.find? "file" with
      | none => return none
      | some value =>
        if !value.isGiven then return none
        else
          match value with
          | .text s => expand env s
          | value => throw (.notPath value.kindName)

end DependencyAudit.Settings
