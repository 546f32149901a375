import DependencyAudit.Command.Request
import DependencyAudit.Console.Table
import DependencyAudit.Evidence.File
import DependencyAudit.Report.Markdown
import DependencyAudit.Settings.EvidencePath

/-!
What a run comes to: what it printed, the files as they are after it, and how it
ended. A run prints in pieces; the first piece that cannot be made ends it, and
what was printed before stays.
-/

namespace DependencyAudit.Command

/-- Faults that a run does not expect and that end it. -/
inductive Crash
  | path (f : PathFault)
  | settings (f : SettingsFault)
  | longInteger (f : LongInteger)
  | evidencePath (f : Settings.EvidencePathFault)
  | evidence (f : EvidenceFault)
  | file (f : FileFault)
  | markup (f : Console.MarkupFault)
  | report (f : Markdown.Fault)
deriving DecidableEq, Repr

def Crash.message : Crash → String
  | .path f => f.message
  | .settings f => f.message
  | .longInteger f => f.message
  | .evidencePath f => f.message
  | .evidence f => f.message
  | .file f => f.message
  | .markup f => f.message
  | .report f => f.message

inductive Ending
  | exit (code : Nat)
  | usage (f : UsageFault)
  | crash (c : Crash)
deriving DecidableEq, Repr

def Ending.code : Ending → Nat
  | .exit code => code
  | .usage _ => 2
  | .crash _ => 1

/-- What ends a run before its work is done. -/
structure Stop where
  output : String
  ending : Ending
deriving DecidableEq, Repr

namespace Stop

def said (code : Nat) (message : String) : Stop := ⟨Console.echo message, .exit code⟩

def usage (f : UsageFault) : Stop := ⟨"", .usage f⟩

def bad (v : BadValue) : Stop := usage (.value v)

def crash (c : Crash) : Stop := ⟨"", .crash c⟩

end Stop

structure Outcome where
  output : String
  files : FileTree
  ending : Ending

/-- A piece of output, if it can be made. -/
abbrev Piece := Except Crash String

/-- The pieces up to the first that cannot be made. -/
def printed : List Piece → String × Option Crash
  | [] => ("", none)
  | .error c :: _ => ("", some c)
  | .ok s :: rest => (s ++ (printed rest).1, (printed rest).2)

namespace Outcome

def stopped (files : FileTree) (s : Stop) : Outcome := ⟨s.output, files, s.ending⟩

def ofPieces (files : FileTree) (pieces : List Piece) : Outcome :=
  ⟨(printed pieces).1, files, ((printed pieces).2.map Ending.crash).getD (.exit 0)⟩

/-- Something printed first, then a file written, then the rest printed. -/
def writing (files : FileTree) (before : List Piece) (write : Except Crash FileTree)
    (after : List Piece) : Outcome :=
  match (printed before).2, write with
  | some _, _ => ofPieces files before
  | none, .error c => ⟨(printed before).1, files, .crash c⟩
  | none, .ok files => ofPieces files (before ++ after)

end Outcome
end DependencyAudit.Command
