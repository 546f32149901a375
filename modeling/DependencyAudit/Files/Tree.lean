import DependencyAudit.Files.Environment
import DependencyAudit.Text.Lines
import DependencyAudit.Text.Quoted
import DependencyAudit.Text.Utf8

/-!
Files and directories by their absolute places. A path is followed part by part
through directories that exist; what stands in the way is the fault. Neither a
part nor a path may be longer than a limit.
-/

namespace DependencyAudit

inductive Node
  | file (content : List UInt8)
  | directory
deriving DecidableEq

abbrev FileTree := List (List String × Node)

inductive FileCause
  | notFound
  | taken
  | notDirectory
  | isDirectory
  | nameTooLong
  | nullCharacter
deriving DecidableEq, Repr

namespace FileCause

def number : FileCause → Nat
  | notFound => 2
  | taken => 17
  | notDirectory => 20
  | isDirectory => 21
  | nameTooLong => 36
  | nullCharacter => 22

def text : FileCause → String
  | notFound => "No such file or directory"
  | taken => "File exists"
  | notDirectory => "Not a directory"
  | isDirectory => "Is a directory"
  | nameTooLong => "File name too long"
  | nullCharacter => "embedded null byte"

end FileCause

structure FileFault where
  cause : FileCause
  path : Path
deriving DecidableEq, Repr

def FileFault.message (f : FileFault) : String :=
  if f.cause = .nullCharacter then f.cause.text
  else s!"[Errno {f.cause.number}] {f.cause.text}: {Text.quotedString f.path.text}"

namespace FileTree

def node? (tree : FileTree) : List String → Option Node
  | [] => some .directory
  | place => (tree.find? fun entry => entry.1 == place).map (·.2)

def put (tree : FileTree) (place : List String) (node : Node) : FileTree :=
  match tree with
  | [] => [(place, node)]
  | entry :: rest => if entry.1 = place then (place, node) :: rest else entry :: put rest place node

def partLimit : Nat := 255

def pathLimit : Nat := 4095

/-- The place that a path leads to. Only the last part may be missing. -/
def follow (tree : FileTree) (place : List String) : List String → Except FileCause (List String)
  | [] => .ok place
  | part :: rest =>
    match tree.node? place with
    | none => .error .notFound
    | some (.file _) => .error .notDirectory
    | some .directory =>
      if partLimit < part.utf8ByteSize then .error .nameTooLong
      else follow tree (Environment.descend place part) rest

def placesFrom (place : List String) : List String → List (List String)
  | [] => [place]
  | part :: rest => place :: placesFrom (Environment.descend place part) rest

def places (env : Environment) (p : Path) : List (List String) :=
  placesFrom (if p.isAbsolute then [] else env.directory) p.parts

def placeOf (tree : FileTree) (env : Environment) (p : Path) : Except FileCause (List String) :=
  if p.hasNull then .error .nullCharacter
  else if pathLimit < p.text.utf8ByteSize then .error .nameTooLong
  else tree.follow (if p.isAbsolute then [] else env.directory) p.parts

/-- What a path leads to, if there is anything. A name that is too long is a fault,
since nothing can be said about it. -/
def find (tree : FileTree) (env : Environment) (p : Path) : Except FileFault (Option Node) :=
  match tree.placeOf env p with
  | .ok place => .ok (tree.node? place)
  | .error .nameTooLong => .error ⟨.nameTooLong, p⟩
  | .error _ => .ok none

def isDirectory (tree : FileTree) (env : Environment) (p : Path) : Bool :=
  match tree.find env p with
  | .ok (some .directory) => true
  | _ => false

def read (tree : FileTree) (env : Environment) (p : Path) : Except FileFault (List UInt8) :=
  match tree.placeOf env p with
  | .error cause => .error ⟨cause, p⟩
  | .ok place =>
    match tree.node? place with
    | none => .error ⟨.notFound, p⟩
    | some .directory => .error ⟨.isDirectory, p⟩
    | some (.file content) => .ok content

def makeDirectory (tree : FileTree) (env : Environment) (p : Path) : Except FileFault FileTree :=
  match tree.placeOf env p with
  | .error cause => .error ⟨cause, p⟩
  | .ok place =>
    match tree.node? place with
    | none => .ok (tree.put place .directory)
    | some _ => .error ⟨.taken, p⟩

/-- A directory that is there already is as good as one that was made. -/
def orExisting (tree : FileTree) (env : Environment) (p : Path) (f : FileFault) :
    Except FileFault FileTree :=
  if tree.isDirectory env p then .ok tree else .error f

def makeDirectoriesUp (tree : FileTree) (env : Environment) (root : String) :
    List String → Except FileFault FileTree
  | [] =>
    match tree.makeDirectory env ⟨root, []⟩ with
    | .ok made => .ok made
    | .error f => tree.orExisting env ⟨root, []⟩ f
  | part :: above =>
    let p : Path := ⟨root, (part :: above).reverse⟩
    match tree.makeDirectory env p with
    | .ok made => .ok made
    | .error f =>
      if f.cause = .notFound then
        match makeDirectoriesUp tree env root above with
        | .error f => .error f
        | .ok tree =>
          match tree.makeDirectory env p with
          | .ok made => .ok made
          | .error f => tree.orExisting env p f
      else tree.orExisting env p f

def makeDirectories (tree : FileTree) (env : Environment) (p : Path) : Except FileFault FileTree :=
  tree.makeDirectoriesUp env p.root p.parts.reverse

def write (tree : FileTree) (env : Environment) (p : Path) (content : List UInt8) :
    Except FileFault FileTree :=
  match tree.placeOf env p with
  | .error cause => .error ⟨cause, p⟩
  | .ok place =>
    match tree.node? place with
    | some .directory => .error ⟨.isDirectory, p⟩
    | _ => .ok (tree.put place (.file content))

/-- The files and directories that are new or other than before. -/
def changes (before after : FileTree) : FileTree :=
  after.filter fun entry => before.node? entry.1 != some entry.2

def save (tree : FileTree) (env : Environment) (p : Path) (content : String) :
    Except FileFault FileTree := do
  let tree ← tree.makeDirectories env p.parent
  tree.write env p content.toUTF8.toList

end FileTree

inductive ReadFault
  | file (f : FileFault)
  | encoding (f : Utf8.Fault)
deriving DecidableEq, Repr

def ReadFault.message : ReadFault → String
  | .file f => f.message
  | .encoding f => f.message

/-- The text of a file, with one line end for all three of the usual ones. -/
def FileTree.readText (tree : FileTree) (env : Environment) (p : Path) :
    Except ReadFault (List Char) := do
  let content ← (tree.read env p).mapError .file
  let text ← (Utf8.decode content).mapError .encoding
  return Text.unifyNewlines text

end DependencyAudit
