import DependencyAudit.Json.Token

/-!
Reading a JSON document from its tokens. The reader keeps the containers that
are still open; each token moves it on or is refused with the cause that the
reader's expectation at that place gives. A key that is written twice keeps its
first place and its last value; half of a surrogate pair in a key is U+FFFD.
Containers may be nested up to a limit.
-/

namespace DependencyAudit.Json

inductive Problem
  | fault (f : Fault)
  | longNumber (digits : Nat)
  /-- A table or a list that is nested too deeply. -/
  | nested (table : Bool)
deriving DecidableEq, Repr

/-- Line and column count from one and are derived from the place in the text. -/
def Fault.message (text : List Char) (f : Fault) : String :=
  let before := text.take f.position
  let line := before.count '\n' + 1
  let column := (before.reverse.takeWhile (· != '\n')).length + 1
  s!"{f.cause.text}: line {line} column {column} (char {f.position})"

def nestedMessage (table : Bool) : String :=
  let kind := if table then "object" else "array"
  s!"maximum recursion depth exceeded while decoding a JSON {kind} from a unicode string"

def Problem.message (text : List Char) : Problem → String
  | .fault f => f.message text
  | .longNumber digits => Reading.tooLongMessage digits
  | .nested table => nestedMessage table

/-- Containers inside each other at most. That is what an interpreter whose stack
holds 1000 calls has left where a command reads a document; it is a property of
the place where the program runs, and none of the format. -/
def nestingLimit : Nat := 990

/-- A container that is still open: the items so far, last first, or the entries
so far and the key whose value is awaited. -/
inductive Frame
  | list (items : List Tree)
  | table (fields : Fields) (key : String)

inductive Expects
  | value
  | itemOrClose
  | keyOrClose (fields : Fields)
  | key (fields : Fields)
  | colon
  | commaOrClose (last : Tree)

structure State where
  frames : List Frame
  expects : Expects

def State.start : State := ⟨[], .value⟩

def State.complete (frames : List Frame) (t : Tree) : State := ⟨frames, .commaOrClose t⟩

def openContainer (frames : List Frame) (table : Bool) (inside : State) : Except Problem State :=
  if frames.length < nestingLimit then .ok inside else .error (.nested table)

def beginValue (frames : List Frame) (p : Placed) : Except Problem State :=
  match p.token with
  | .openList => openContainer frames false ⟨.list [] :: frames, .itemOrClose⟩
  | .openTable => openContainer frames true ⟨frames, .keyOrClose []⟩
  | .value s => .ok (.complete frames (.scalar s))
  | .string s => .ok (.complete frames (.text (String.ofList s)))
  | .halved s => .ok (.complete frames (.scalar (.halved (String.ofList s))))
  | .badString f => .error (.fault f)
  | .longNumber n => .error (.longNumber n)
  | _ => .error (.fault ⟨.value, p.position⟩)

def beginKey (frames : List Frame) (fields : Fields) (p : Placed) : Except Problem State :=
  match p.token with
  | .string s => .ok ⟨.table fields (String.ofList s) :: frames, .colon⟩
  | .halved s => .ok ⟨.table fields (String.ofList s) :: frames, .colon⟩
  | .badString f => .error (.fault f)
  | _ => .error (.fault ⟨.propertyName, p.position⟩)

def afterValue (frames : List Frame) (last : Tree) (p : Placed) : Except Problem State :=
  match frames, p.token with
  | [], _ => .error (.fault ⟨.extra, p.position⟩)
  | .list items :: outer, .comma => .ok ⟨.list (last :: items) :: outer, .value⟩
  | .list items :: outer, .closeList => .ok (.complete outer (.list (last :: items).reverse))
  | .table fields key :: outer, .comma => .ok ⟨outer, .key (Fields.put key last fields)⟩
  | .table fields key :: outer, .closeTable =>
    .ok (.complete outer (.table (Fields.put key last fields)))
  | _, _ => .error (.fault ⟨.comma, p.position⟩)

def State.step (s : State) (p : Placed) : Except Problem State :=
  match s.expects with
  | .value => beginValue s.frames p
  | .itemOrClose =>
    match s.frames, p.token with
    | .list items :: outer, .closeList => .ok (.complete outer (.list items.reverse))
    | frames, _ => beginValue frames p
  | .keyOrClose fields =>
    match p.token with
    | .closeTable => .ok (.complete s.frames (.table fields))
    | _ => beginKey s.frames fields p
  | .key fields => beginKey s.frames fields p
  | .colon =>
    match p.token with
    | .colon => .ok ⟨s.frames, .value⟩
    | _ => .error (.fault ⟨.colon, p.position⟩)
  | .commaOrClose last => afterValue s.frames last p

def State.finish (s : State) (length : Nat) : Except Problem Tree :=
  match s.expects, s.frames with
  | .commaOrClose t, [] => .ok t
  | .commaOrClose _, _ :: _ => .error (.fault ⟨.comma, length⟩)
  | .value, _ => .error (.fault ⟨.value, length⟩)
  | .itemOrClose, _ => .error (.fault ⟨.value, length⟩)
  | .keyOrClose _, _ => .error (.fault ⟨.propertyName, length⟩)
  | .key _, _ => .error (.fault ⟨.propertyName, length⟩)
  | .colon, _ => .error (.fault ⟨.colon, length⟩)

def read (text : List Char) : Except Problem Tree :=
  match text with
  | '\uFEFF' :: _ => .error (.fault ⟨.byteOrderMark, 0⟩)
  | _ => do
    let s ← (tokens text).foldlM State.step .start
    s.finish text.length

end DependencyAudit.Json
