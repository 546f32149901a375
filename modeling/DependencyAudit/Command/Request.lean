import DependencyAudit.Command.Option
import DependencyAudit.Declaration.Basic
import DependencyAudit.Files.Path
import DependencyAudit.Settings.Load

/-!
What a command line asks for. Options before the command are about the whole
run; each command has options and arguments of its own. Of an option that is
given twice the last counts.
-/

namespace DependencyAudit.Command

inductive BadValue
  | mode
  | format
  | evidence
  | coordinate
  | kind
  | nullCharacter
deriving DecidableEq, Repr

def BadValue.message : BadValue → String
  | .mode => "--mode must be one of: " ++ ", ".intercalate Settings.modes
  | .format => "--format must be one of: " ++ ", ".intercalate Settings.formats
  | .evidence => "evidence mode requires --evidence or [evidence].file in config"
  | .coordinate => "coordinate must look like group:artifact:version"
  | .kind => "--kind must be one of: " ++ ", ".intercalate (Kind.all.map Kind.name)
  | .nullCharacter => "Value error, " ++ PathFault.nullCharacter.message

inductive UsageFault
  | option (f : OptionFault)
  | missing (argument : String)
  | extra (arguments : List String)
  | command (name : String)
  | value (v : BadValue)
deriving DecidableEq, Repr

def UsageFault.message : UsageFault → String
  | .option f => f.message
  | .missing argument => s!"Missing argument '{argument}'."
  | .extra arguments => "Got unexpected extra arguments (" ++ " ".intercalate arguments ++ ")"
  | .command name => s!"No such command '{name}'."
  | .value v => v.message

/-- Paths on the command line hold no null character. -/
def checkPath (p : Path) : Except UsageFault Unit :=
  if p.hasNull then .error (.value .nullCharacter) else .ok ()

def checkPaths (ps : List Path) : Except UsageFault Unit := ps.forM checkPath

inductive GeneralOption
  | json
  | plain
  | config (path : String)
  | verbose
  | quiet
  | version
  | help

def generalOptions : Options GeneralOption where
  flags := [("--json", .json), ("--plain", .plain), ("--verbose", .verbose), ("-v", .verbose),
    ("--quiet", .quiet), ("-q", .quiet), ("--version", .version), ("--help", .help)]
  values := [("--config", .config)]
  mixed := false

structure General where
  json : Bool
  plain : Bool
  verbose : Bool
  quiet : Bool
  version : Bool
  help : Bool
  config : Option Path
deriving DecidableEq

namespace General

def default : General := ⟨false, false, false, false, false, false, none⟩

def add (g : General) : GeneralOption → General
  | .json => { g with json := true }
  | .plain => { g with plain := true }
  | .config path => { g with config := some (Path.ofString path) }
  | .verbose => { g with verbose := true }
  | .quiet => { g with quiet := true }
  | .version => { g with version := true }
  | .help => { g with help := true }

/-- Help is given whatever the other options are. -/
def ofOptions (options : List GeneralOption) : Except UsageFault General := do
  let g := options.foldl add default
  if !g.help then checkPaths g.config.toList
  return g

end General

inductive AuditOption
  | evidence (path : String)
  | mode (name : String)
  | showAll (b : Bool)
  | format (name : String)
  | outputFile (path : String)
  | patch (b : Bool)
  | help

def auditOptions : Options AuditOption where
  flags := [("--all", .showAll true), ("--flagged-only", .showAll false), ("--patch", .patch true),
    ("--no-patch", .patch false), ("--help", .help)]
  values := [("--evidence", .evidence), ("--mode", .mode), ("--format", .format),
    ("--output-file", .outputFile)]
  mixed := true

structure AuditRequest where
  manifest : Path
  evidence : Option Path
  mode : Option String
  showAll : Option Bool
  format : Option String
  outputFile : Option Path
  patch : Bool
deriving DecidableEq

namespace AuditRequest

def empty : AuditRequest := ⟨⟨"", []⟩, none, none, none, none, none, false⟩

def add (r : AuditRequest) : AuditOption → AuditRequest
  | .evidence path => { r with evidence := some (Path.ofString path) }
  | .mode name => { r with mode := some name }
  | .showAll b => { r with showAll := some b }
  | .format name => { r with format := some name }
  | .outputFile path => { r with outputFile := some (Path.ofString path) }
  | .patch b => { r with patch := b }
  | .help => r

end AuditRequest

inductive ExplainOption
  | kind (name : String)
  | evidence (path : String)
  | mode (name : String)
  | help

def explainOptions : Options ExplainOption where
  flags := [("--help", .help)]
  values := [("--kind", .kind), ("--evidence", .evidence), ("--mode", .mode)]
  mixed := true

structure ExplainRequest where
  coordinate : String
  kind : String
  evidence : Option Path
  mode : Option String
deriving DecidableEq

namespace ExplainRequest

def empty : ExplainRequest := ⟨"", Kind.implementation.name, none, none⟩

def add (r : ExplainRequest) : ExplainOption → ExplainRequest
  | .kind name => { r with kind := name }
  | .evidence path => { r with evidence := some (Path.ofString path) }
  | .mode name => { r with mode := some name }
  | .help => r

end ExplainRequest

inductive DeclarationsOption
  | help

def declarationsOptions : Options DeclarationsOption where
  flags := [("--help", .help)]
  values := []
  mixed := true

inductive Request
  | audit (r : AuditRequest)
  | declarations (manifest : Path)
  | explain (r : ExplainRequest)
  | help

inductive Name
  | audit
  | declarations
  | explain
deriving DecidableEq, Repr

def Name.ofText? (s : String) : Option Name :=
  [("audit", Name.audit), ("declarations", .declarations), ("explain", .explain)].lookup s

/-- The argument of a command, of which there is one, and what is checked about it. -/
def single {α : Type} (what : String) (read : String → Except UsageFault α) :
    List String → Except UsageFault α
  | [] => .error (.missing what)
  | arg :: extra => do
    let a ← read arg
    if extra.isEmpty then return a else throw (.extra extra)

def manifest (arg : String) : Except UsageFault Path := do
  let p := Path.ofString arg
  checkPath p
  return p

namespace Request

def ofAudit (args : List String) : Except UsageFault Request := do
  let (options, others) ← (auditOptions.read args).mapError .option
  if options.any fun | .help => true | _ => false then return .help
  else
    let given := options.foldl AuditRequest.add .empty
    checkPaths (given.evidence.toList ++ given.outputFile.toList)
    return .audit { given with manifest := ← single "MANIFEST" manifest others }

def ofDeclarations (args : List String) : Except UsageFault Request := do
  let (options, others) ← (declarationsOptions.read args).mapError .option
  if !options.isEmpty then return .help
  else return .declarations (← single "MANIFEST" manifest others)

def ofExplain (args : List String) : Except UsageFault Request := do
  let (options, others) ← (explainOptions.read args).mapError .option
  if options.any fun | .help => true | _ => false then return .help
  else
    let given := options.foldl ExplainRequest.add .empty
    checkPaths given.evidence.toList
    return .explain { given with coordinate := ← single "COORDINATE" .ok others }

def ofArguments (name : Name) (args : List String) : Except UsageFault Request :=
  match name with
  | .audit => ofAudit args
  | .declarations => ofDeclarations args
  | .explain => ofExplain args

end Request
end DependencyAudit.Command
