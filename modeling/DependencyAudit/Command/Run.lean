import DependencyAudit.Command.Audit
import DependencyAudit.Command.Declarations
import DependencyAudit.Command.Explain
import DependencyAudit.Text.Word

/-!
A run of the program over the files around it. The options of the run are read
first, then the settings are loaded, and only then are the arguments of the
command read; each of these may end the run.
-/

namespace DependencyAudit.Command

def version : String := "0.1.0"

def usageText : String :=
  "Usage: dep-auditor [OPTIONS] COMMAND [ARGS]...\n\n"
    ++ "Report likely unused or oversized dependencies in a Gradle build script\n\n"
    ++ "Options: --json, --plain, --config PATH, --verbose, --quiet, --version, --help\n\n"
    ++ "Commands:\n"
    ++ "  audit MANIFEST [--evidence PATH] [--mode TEXT] [--all|--flagged-only]\n"
    ++ "      [--format TEXT] [--output-file PATH] [--patch|--no-patch]\n"
    ++ "  declarations MANIFEST\n"
    ++ "  explain COORDINATE [--kind TEXT] [--evidence PATH] [--mode TEXT]"

def help : Stop := .said 0 usageText

def exclusiveText : String := "Options --json and --plain are mutually exclusive."

/-- A name that starts with a sign may have been meant as an option, so that it and
what stands behind it are read as options first. -/
def looksLikeOption (name : String) : Bool :=
  name.toList.head?.any fun c => !Text.isWord c || c = '_'

def unknown (general : General) (name : String) (rest : List String) :
    Except UsageFault (General × Option (Name × List String)) :=
  if looksLikeOption name then do
    let (options, _) ← (generalOptions.read (name :: rest)).mapError .option
    if (← General.ofOptions options).help then return ({ general with help := true }, none)
    else throw (.command name)
  else .error (.command name)

/-- What stands before the command, the command's name and what stands behind it. -/
def split (args : List String) :
    Except UsageFault (General × Option (Name × List String)) := do
  let (options, others) ← (generalOptions.read args).mapError .option
  let general ← General.ofOptions options
  match others with
  | [] => return (general, none)
  | name :: rest =>
    if general.help then return (general, none)
    else
      match Name.ofText? name with
      | some n => return (general, some (n, rest))
      | none => unknown general name rest

def begin (env : Environment) (files : FileTree) (general : General) : Except Stop Session :=
  if general.help then .error help
  else if general.version then .error (.said 0 version)
  else if general.json && general.plain then .error (.said 2 exclusiveText)
  else Session.load env files general

def perform (s : Session) : Request → Outcome
  | .audit r => Audit.run s r
  | .declarations manifest => Declarations.run s manifest
  | .explain r => Explain.run s r
  | .help => .stopped s.files help

def prepare (env : Environment) (files : FileTree) (args : List String) :
    Except Stop (Session × Request) := do
  let (general, command) ← (split args).mapError .usage
  let session ← begin env files general
  match command with
  | none => throw help
  | some (name, rest) => return (session, ← (Request.ofArguments name rest).mapError .usage)

def run (env : Environment) (files : FileTree) (args : List String) : Outcome :=
  match prepare env files args with
  | .error stop => .stopped files stop
  | .ok (session, request) => perform session request

end DependencyAudit.Command
