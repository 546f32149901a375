import DependencyAudit.Command.Outcome
import DependencyAudit.Declaration.File
import DependencyAudit.Json.Writing

/-!
The part of a run that all commands share: the settings are loaded, the tables
are made of them, and the basis of the verdicts is settled. An option that is
given, and not empty, comes before the settings.
-/

namespace DependencyAudit.Command

/-- A document as it is printed or written, unless a number in it is too long. -/
def documentText (style : Json.Style) (t : Tree) : Piece :=
  if t.isLong then .error (.longInteger ⟨⟩) else .ok (Json.write style t ++ "\n")

structure Session where
  env : Environment
  files : FileTree
  general : General
  settings : Fields
  tables : Tables

namespace Session

def settingsPath (env : Environment) (general : General) : Except PathFault Path :=
  match general.config with
  | some p => env.locate p
  | none => (Settings.defaultPath env).bind env.locate

def settingsStop (f : Settings.Fault) : Stop :=
  match f.cause with
  | .longInteger f => .crash (.longInteger f)
  | .unusable f => .crash (.file f)
  | _ => .said 2 s!"Config error: {f.message}"

def load (env : Environment) (files : FileTree) (general : General) : Except Stop Session := do
  let path ← (settingsPath env general).mapError fun f => .crash (.path f)
  let settings ← (Settings.load files env path).mapError settingsStop
  let tables ← (Tables.ofSettings settings).mapError fun f => .crash (.settings f)
  return ⟨env, files, general, settings, tables⟩

def setting? (s : Session) (part key : String) : Option Tree :=
  (Tree.table s.settings).at? [part, key]

def settingText (s : Session) (part key fallback : String) : String :=
  match s.setting? part key with
  | some (.text t) => t
  | _ => fallback

/-- The text of an option, or of the settings if the option is missing or empty. -/
def chosen (s : Session) (option : Option String) (part key fallback : String) : String :=
  match option.filter (· ≠ "") with
  | some t => t
  | none => s.settingText part key fallback

/-- Console output, unless the run is to be quiet. -/
def console (s : Session) (p : Piece) : Piece :=
  p.map fun text => if s.general.quiet then "" else text

def line (s : Session) (text : String) : Piece :=
  s.console (.ok (Console.shownText s.env.emoji text))

def markup (s : Session) (text : String) : Piece :=
  s.console ((Console.shownMarkup s.env.emoji text).mapError .markup)

def table (s : Session) (t : Console.Table) : Piece :=
  s.console ((t.text s.env.emoji).mapError .markup)

def document (s : Session) (t : Tree) : Piece :=
  if s.general.plain then documentText .compact t else s.console (documentText .console t)

def scriptStop (f : ScriptFault) : Stop :=
  match f.cause with
  | .unusable f => .crash (.file f)
  | _ => .said 1 s!"Manifest error: {f.message}"

def readScript (s : Session) (manifest : Path) : Except Stop (List String) :=
  (s.files.readScript s.env manifest).mapError scriptStop

end Session

/-- What verdicts rest on: names alone, or evidence with the place it is from. -/
inductive Basis
  | names
  | evidence (resolved : Evidence) (path : Path)

namespace Basis

def mode : Basis → Mode
  | names => .heuristic
  | evidence _ _ => .evidence

def evidence? : Basis → Option Evidence
  | names => none
  | evidence resolved _ => some resolved

def path? : Basis → Option Path
  | names => none
  | evidence _ path => some path

def evidenceStop : EvidenceFault → Stop
  | .file cause path => .said 1 s!"Evidence error: {(EvidenceFault.file cause path).message}"
  | f => .crash (.evidence f)

/-- Evidence is read only if the mode may call for it. -/
def settle (s : Session) (mode : Option String) (path : Option Path) : Except Stop Basis :=
  let chosen := s.chosen mode "classification" "mode" "auto"
  if !Settings.modes.contains chosen then .error (.bad .mode)
  else if chosen = "heuristic" then .ok names
  else
    match Settings.evidencePath s.env s.settings path with
    | .error f => .error (.crash (.evidencePath f))
    | .ok none => if chosen = "evidence" then .error (.bad .evidence) else .ok names
    | .ok (some p) => ((s.files.readEvidence s.env p).mapError evidenceStop).map (evidence · p)

end Basis
end DependencyAudit.Command
