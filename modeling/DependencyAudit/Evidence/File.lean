import DependencyAudit.Evidence.Text
import DependencyAudit.Files.Tree
import DependencyAudit.Json.Reading
import DependencyAudit.Yaml.Value

/-!
Evidence in files. The ending of a file's name says how it is read: as JSON, as
YAML or as plain text. A document holds a list of coordinates, or a table with
one under the key `resolved`; one that holds nothing says that nothing was resolved.
-/

namespace DependencyAudit

inductive EvidenceCause
  | unreadable (f : ReadFault)
  | json (detail : String)
  | yaml (detail : String)
  | notList
deriving DecidableEq, Repr

/-- Faults of a file are reported with its path; the others are about a value in it. -/
inductive EvidenceFault
  | file (cause : EvidenceCause) (path : Path)
  | nullCharacter
  | longNumber (digits : Nat)
  | nested (table : Bool)
  | longInteger (f : LongInteger)
  | yamlValue (f : Yaml.Fault)
deriving DecidableEq, Repr

def EvidenceFault.message : EvidenceFault → String
  | .file (.unreadable f) p => s!"Unable to read evidence file {p.text}: {f.message}"
  | .file (.json detail) p => s!"Invalid JSON in evidence file {p.text}: {detail}"
  | .file (.yaml detail) p => s!"Invalid YAML in evidence file {p.text}: {detail}"
  | .file .notList p =>
    s!"Evidence file {p.text} must hold a list of coordinates or a 'resolved' list"
  | .nullCharacter => PathFault.nullCharacter.message
  | .longNumber digits => Reading.tooLongMessage digits
  | .nested table => Json.nestedMessage table
  | .longInteger f => f.message
  | .yamlValue f => f.message

namespace Evidence

def resolvedKey : String := "resolved"

/-- Coordinates without the white space around them; blank ones do not count. -/
def cleaned (items : List String) : Evidence :=
  (items.map fun s => String.ofList (Text.trim s.toList)).filter (· ≠ "")

/-- The items of a list; nothing stands for a list without items. -/
def listed? : Tree → Option (List Tree)
  | .null => some []
  | .list items => some items
  | _ => none

def items? : Tree → Option (List Tree)
  | .table fields => listed? ((Fields.find? resolvedKey fields).getD .null)
  | t => listed? t

def listedYaml? (d : Yaml.Document) : Yaml.Value → Option (List Yaml.Value)
  | .scalar .null => some []
  | .collection id =>
    match d.collection? id with
    | some (.list items) => some items
    | _ => none
  | _ => none

def yamlItems? (d : Yaml.Document) : Option (List Yaml.Value) :=
  match d.table? d.root with
  | some entries => listedYaml? d ((entries.lookup (.text resolvedKey)).getD (.scalar .null))
  | none => listedYaml? d d.root

def ofJsonText (p : Path) (text : List Char) : Except EvidenceFault Evidence :=
  match Json.read text with
  | .error (.fault f) => .error (.file (.json (f.message text)) p)
  | .error (.longNumber digits) => .error (.longNumber digits)
  | .error (.nested table) => .error (.nested table)
  | .ok t =>
    match items? t with
    | some items =>
      if Tree.anyLong items then .error (.longInteger ⟨⟩) else .ok (cleaned (items.map Tree.plain))
    | none => .error (.file .notList p)

def ofYamlText (p : Path) (text : List Char) : Except EvidenceFault Evidence :=
  match Yaml.read text with
  | .error (.malformed cause) => .error (.file (.yaml cause.text) p)
  | .error f => .error (.yamlValue f)
  | .ok none => .ok []
  | .ok (some d) =>
    match yamlItems? d with
    | some items => ((items.mapM d.plain).map cleaned).mapError .longInteger
    | none => .error (.file .notList p)

def decode (p : Path) (text : List Char) : Except EvidenceFault Evidence :=
  if p.kind = ".json" then ofJsonText p text
  else if p.kind = ".yaml" ∨ p.kind = ".yml" then ofYamlText p text
  else .ok (ofText text)

end Evidence

def readFault (p : Path) : ReadFault → EvidenceFault
  | .file ⟨.nullCharacter, _⟩ => .nullCharacter
  | f => .file (.unreadable f) p

def FileTree.readEvidence (tree : FileTree) (env : Environment) (p : Path) :
    Except EvidenceFault Evidence := do
  let text ← (tree.readText env p).mapError (readFault p)
  Evidence.decode p text

end DependencyAudit
