import DependencyAudit.Document.Merge
import DependencyAudit.Document.Literal
import DependencyAudit.Files.Tree
import DependencyAudit.Json.Reading
import DependencyAudit.Toml.Reading

/-!
Settings: the defaults with what a file says laid over them. Whatever is
returned has its sections as tables and names a known mode and a known format.
-/

namespace DependencyAudit.Settings

def emptyTable : Tree := .table []

def defaults : Fields :=
  [("classification", .table
      [("mode", .text "auto"),
        ("families", .table
          [("essential", .list []), ("large_utility", .list []), ("framework", .list [])]),
        ("sizes", emptyTable)]),
    ("report", .table [("show_all", .bool true), ("output_format", .text "table")]),
    ("evidence", .table [("file", .text "")])]

def modes : List String := ["auto", "heuristic", "evidence"]

def formats : List String := ["table", "markdown", "json"]

inductive Cause
  | unusable (f : FileFault)
  | unreadable (f : ReadFault)
  | json (detail : String)
  | jsonNumber (detail : String)
  | toml (detail : String)
  | notTable
  | notSection (name : String)
  | mode (value : Tree)
  | format (value : Tree)
  | longInteger (f : LongInteger)

structure Fault where
  cause : Cause
  path : Path

def Fault.message (f : Fault) : String :=
  let p := f.path.text
  match f.cause with
  | .unusable f => f.message
  | .unreadable r => s!"Unable to read config file {p}: {r.message}"
  | .json detail => s!"Invalid JSON in config file {p}: {detail}"
  | .jsonNumber detail => s!"Failed to parse config file {p}: {detail}"
  | .toml detail => s!"Invalid TOML in config file {p}: {detail}"
  | .notTable => s!"Config file {p} must contain an object/table at the root"
  | .notSection name => s!"'{name}' in {p} must be a table"
  | .mode value =>
    let choices := ", ".intercalate modes
    s!"classification.mode in {p} must be one of {choices}, got {value.literal}"
  | .format value =>
    let choices := ", ".intercalate formats
    s!"report.output_format in {p} must be one of {choices}, got {value.literal}"
  | .longInteger f => f.message

/-- A name without an ending is taken for TOML as well. -/
def isToml (p : Path) : Bool := p.kind = ".toml" || p.kind = ""

def decode (p : Path) (text : List Char) : Except Cause Fields :=
  if isToml p then (Toml.read text).mapError fun f => .toml (f.message text)
  else
    match Json.read text with
    | .ok (.table fields) => .ok fields
    | .ok _ => .error .notTable
    | .error (.fault f) => .error (.json (f.message text))
    | .error p => .error (.jsonNumber (p.message text))

def subtable? (key : String) (fields : Fields) : Option Fields :=
  match fields.find? key with
  | some (.table t) => some t
  | _ => none

def requireTable (name key : String) (fields : Fields) : Except Cause Fields :=
  match subtable? key fields with
  | some t => .ok t
  | none => .error (.notSection name)

def isOneOf (names : List String) : Tree → Bool
  | .text s => names.contains s
  | _ => false

def valueOf (key : String) (fields : Fields) : Tree := (fields.find? key).getD .null

/-- A choice that is none of those offered, and what is then said about it. -/
def choose (names : List String) (refused : Tree → Cause) (value : Tree) : Except Cause Unit :=
  if isOneOf names value then .ok ()
  else .error (if value.isLong then .longInteger ⟨⟩ else refused value)

def check (settings : Fields) : Except Cause Unit := do
  let classification ← requireTable "classification" "classification" settings
  let report ← requireTable "report" "report" settings
  let _ ← requireTable "evidence" "evidence" settings
  let _ ← requireTable "classification.families" "families" classification
  let _ ← requireTable "classification.sizes" "sizes" classification
  choose modes .mode (valueOf "mode" classification)
  choose formats .format (valueOf "output_format" report)

def ofFile (tree : FileTree) (env : Environment) (p : Path) : Except Cause Fields := do
  let text ← (tree.readText env p).mapError .unreadable
  let settings := Fields.over defaults (← decode p text)
  check settings
  return settings

/-- A file that is not there leaves the defaults. -/
def load (tree : FileTree) (env : Environment) (p : Path) : Except Fault Fields :=
  match tree.find env p with
  | .error f => .error ⟨.unusable f, p⟩
  | .ok none => .ok defaults
  | .ok (some _) => (ofFile tree env p).mapError fun cause => ⟨cause, p⟩

def defaultPathText (env : Environment) : String :=
  (env.get? "DEP_AUDITOR_CONFIG_FILE").getD "~/.config/dep-auditor/config.toml"

def defaultPath (env : Environment) : Except PathFault Path :=
  env.expandPath (defaultPathText env)

end DependencyAudit.Settings
