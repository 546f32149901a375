import DependencyAudit.Command.Session
import DependencyAudit.Report.Payload

/-!
The declarations of a script, as they stand in it: no verdict is given on them.
-/

namespace DependencyAudit.Command.Declarations

def columns : List Console.Column :=
  [⟨"Line", true⟩, ⟨"Kind", false⟩, ⟨"Group", false⟩, ⟨"Artifact", false⟩, ⟨"Version", false⟩]

def cells (d : Declaration) : List String :=
  [toString d.line, d.kind.name, d.coordinate.group, d.coordinate.artifact, d.coordinate.version]

def plainHead : List String := ["line", "kind", "group", "artifact", "version"]

def pieces (s : Session) (manifest : Path) (declarations : List Declaration) : List Piece :=
  if s.general.json then [s.document (.list (declarations.map Declaration.toTree))]
  else if s.general.plain then
    (plainHead :: declarations.map cells).map fun cells => .ok (Console.echoCells cells)
  else
    [s.table ⟨s!"Declarations in {manifest.name} ({declarations.length} total)", columns,
      declarations.map cells⟩]

def run (s : Session) (manifest : Path) : Outcome :=
  match s.readScript manifest with
  | .error stop => .stopped s.files stop
  | .ok lines => .ofPieces s.files (pieces s manifest (Declaration.ofLines lines))

end DependencyAudit.Command.Declarations
