import DependencyAudit.Document.Literal
import DependencyAudit.Yaml.Members
import DependencyAudit.Yaml.Node
import DependencyAudit.Yaml.Number

/-!
Values of documents. A collection is met where it stands and filled later: round
by round those are filled that the round before met, so of several faults in a
document the one that this order meets first counts. A mapping takes over what
it merges when it is filled, and then holds it. Keys of a table are scalars;
equal numbers are one key, whatever their kind, and an entry with a key that is
there already changes its value only.
-/

namespace DependencyAudit.Yaml

inductive Value
  | scalar (s : Scalar)
  /-- A pair at an index of the list of a node. -/
  | pair (owner index : Nat) (first second : Value)
  /-- The collection of the node with a number. -/
  | collection (id : Nat)

inductive Collection
  | list (items : List Value)
  | table (entries : List (Scalar × Value))
  | set (members : List Scalar)

def numberOf? : Scalar → Option Number
  | .bool b => some (.int (if b then 1 else 0))
  | .int n => some (.int n)
  | .float x => some (.real x)
  | _ => none

def sameNumber : Number → Number → Bool
  | .int a, .int b => a = b
  | .int a, .real x => truncated? x = some a && floatOfInt? a == some x
  | .real x, .int a => truncated? x = some a && floatOfInt? a == some x
  | .real x, .real y => x == y || (x.isNaN && y.isNaN)

/-- Two moments with offsets are the same if they are the same instant. -/
def sameKey (a b : Scalar) : Bool :=
  match numberOf? a, numberOf? b, a, b with
  | some m, some n, _, _ => sameNumber m n
  | _, _, .moment m, .moment n =>
    m = n || (m.instant?.isSome && m.instant? = n.instant?)
  | _, _, _, _ => a = b

def putEntry (entries : List (Scalar × Value)) (key : Scalar) (value : Value) :
    List (Scalar × Value) :=
  match entries with
  | [] => [(key, value)]
  | e :: rest => if sameKey e.1 key then (e.1, value) :: rest else e :: putEntry rest key value

def tableOf (entries : List (Scalar × Value)) : List (Scalar × Value) :=
  entries.foldl (fun t e => putEntry t e.1 e.2) []

def Tag.collects : Tag → Bool
  | seq => true
  | map => true
  | set => true
  | omap => true
  | pairs => true
  | _ => false

structure Build where
  graph : Graph
  values : Array (Option Value)
  filled : Array (Option Collection)
  /-- Collections that are still to be filled, the last that was met first. -/
  waiting : List Nat

abbrev Building := StateT Build (Except Fault)

namespace Build

def start (g : Graph) : Build :=
  ⟨g, g.map fun _ => none, g.map fun _ => none, []⟩

def node (id : Nat) : Building Node := return (← get).graph.node id

/-- A mapping that has the tag of a scalar stands for the text under its key `=`. -/
def textIn (g : Graph) : Nat → Content → Except Fault (List Char)
  | _, .scalar text => .ok text
  | _, .sequence _ => fail .otherNode
  | 0, .mapping _ => .error .endless
  | n + 1, .mapping entries =>
    match entries.find? fun e => (g.node e.1).tag = .value with
    | some e => textIn g n (g.node e.2).content
    | none => fail .otherNode

def scalarIn (g : Graph) (n : Node) : Except Fault Scalar :=
  if n.tag.isKnown then do
    let text ← textIn g g.size n.content
    match n.tag, n.content with
    | .timestamp, .mapping _ => throw .noText
    | tag, _ => scalarOf tag text
  else fail .unknownTag

def meet (id : Nat) : Building Value := do
  match (← get).values[id]?.join with
  | some v => return v
  | none =>
    let n ← node id
    let v ←
      if n.tag.collects then do
        modify fun b => { b with waiting := id :: b.waiting }
        pure (.collection id)
      else return .scalar (← scalarIn (← get).graph n)
    modify fun b => { b with values := b.values.setIfInBounds id (some v) }
    return v

/-- A key has to be a scalar. -/
def meetKey (id : Nat) : Building Scalar := do
  match ← meet id with
  | .scalar s => return s
  | _ => throw (.malformed .unhashableKey)

def meetEntries (entries : List (Nat × Nat)) : Building (List (Scalar × Value)) :=
  entries.mapM fun (key, value) => return (← meetKey key, ← meet value)

/-- Mappings of one entry each, which is their own. -/
def meetPairs (owner : Nat) (items : List Nat) : Building (List Value) :=
  items.zipIdx.mapM fun (id, index) => do
    match (← node id).content with
    | .mapping [(key, value)] => return .pair owner index (← meet key) (← meet value)
    | _ => throw (.malformed .otherNode)

def entriesOf (id : Nat) : Building (List (Nat × Nat)) := do
  match (← node id).content with
  | .mapping entries => return entries
  | _ => return []

def setEntries (id : Nat) (entries : List (Nat × Nat)) : Building Unit := do
  let n ← node id
  modify fun b => { b with graph := b.graph.put id { n with content := .mapping entries } }

/-- A key that is written `=` is a text from now on. -/
def settleKey (id : Nat) : Building Unit := do
  let n ← node id
  if n.tag = .value then
    modify fun b => { b with graph := b.graph.put id { n with tag := .str } }

mutual

/-- Takes over what a mapping merges, from an entry on and behind what it took
already. An entry that merges is gone before what it names is looked at, so the
number of such entries bounds the steps. -/
def mergeFrom : Nat → Nat → Nat → List (Nat × Nat) → Building Unit
  | 0, _, _, _ => pure ()
  | fuel + 1, id, start, taken => do
    let entries ← entriesOf id
    let g := (← get).graph
    let own := (entries.drop start).takeWhile fun e => (g.node e.1).tag ≠ .merge
    own.forM fun e => settleKey e.1
    let place := start + own.length
    match entries[place]? with
    | none => if !taken.isEmpty then setEntries id (taken ++ entries)
    | some (_, source) =>
      setEntries id (entries.eraseIdx place)
      let more ← merged fuel source
      mergeFrom fuel id place (taken ++ more)

/-- The entries that a source gives: a mapping, or a sequence of some, of which
the first wins and so comes last. -/
def merged (fuel : Nat) (source : Nat) : Building (List (Nat × Nat)) := do
  match (← node source).content with
  | .scalar _ => throw (.malformed .merge)
  | .mapping _ =>
    mergeFrom fuel source 0 []
    entriesOf source
  | .sequence items =>
    let found ← items.mapM fun item => do
      match (← node item).content with
      | .mapping _ =>
        mergeFrom fuel item 0 []
        entriesOf item
      | _ => throw (.malformed .merge)
    return found.reverse.flatten

end

/-- The entries in a graph that merge. -/
def mergeCount (g : Graph) : Nat :=
  g.foldl (fun n node =>
    match node.content with
    | .mapping entries => n + (entries.filter fun e => (g.node e.1).tag = .merge).length
    | _ => n) 0

def fillTable (id : Nat) : Building (List (Scalar × Value)) := do
  match (← node id).content with
  | .mapping _ =>
    mergeFrom (mergeCount (← get).graph + 1) id 0 []
    return tableOf (← meetEntries (← entriesOf id))
  | _ => throw (.malformed .otherNode)

def items (id : Nat) : Building (List Nat) := do
  match (← node id).content with
  | .sequence items => return items
  | _ => throw (.malformed .otherNode)

def contentOf (id : Nat) : Building Collection := do
  match (← node id).tag with
  | .map => return .table (← fillTable id)
  | .set => return .set (Members.inOrder ((← fillTable id).map (·.1)))
  | .seq => return .list (← (← items id).mapM meet)
  | _ => return .list (← meetPairs id (← items id))

def fill (id : Nat) : Building Unit := do
  let c ← contentOf id
  modify fun b => { b with filled := b.filled.setIfInBounds id (some c) }

/-- Every round fills a collection that was not filled before. -/
def rounds : Nat → Building Unit
  | 0 => pure ()
  | n + 1 => do
    let waiting := (← get).waiting.reverse
    if !waiting.isEmpty then
      modify fun b => { b with waiting := [] }
      waiting.forM fill
      rounds n

end Build

structure Document where
  root : Value
  collections : Array (Option Collection)

namespace Document

def ofGraph (g : Graph) (root : Nat) : Except Fault Document := do
  let build : Building Value := do
    let v ← Build.meet root
    Build.rounds (g.size + 1)
    return v
  let (root, b) ← build.run (.start g)
  return ⟨root, b.filled⟩

def collection? (d : Document) (id : Nat) : Option Collection := d.collections[id]?.join

def table? (d : Document) : Value → Option (List (Scalar × Value))
  | .collection id =>
    match d.collection? id with
    | some (.table entries) => some entries
    | _ => none
  | _ => none

def checked (s : Scalar) (text : String) : Except LongInteger String :=
  if s.isLong then .error ⟨⟩ else .ok text

def braced (parts : List String) : String := "\x7b" ++ ", ".intercalate parts ++ "\x7d"

/-- A collection inside itself. -/
def again : Collection → String
  | .list _ => "[...]"
  | .table _ => "\x7b...\x7d"
  | .set _ => "set(...)"

/-- The literal form of a value inside of open collections and pairs. A pair is
known by its list and its index there. Each collection is opened at most once on
the way to a place, which bounds the steps. -/
def literal (d : Document) : Nat → List (Nat × Option Nat) → Value → Except LongInteger String
  | 0, _, _ => .ok ""
  | _, _, .scalar s => checked s s.literal
  | n + 1, opened, .pair owner index a b =>
    if opened.contains (owner, some index) then .ok "(...)"
    else do
      let inside := literal d n ((owner, some index) :: opened)
      return "(" ++ (← inside a) ++ ", " ++ (← inside b) ++ ")"
  | n + 1, opened, .collection id =>
    match d.collection? id with
    | none => .ok ""
    | some c =>
      if opened.contains (id, none) then .ok (again c)
      else
        let inside := literal d n ((id, none) :: opened)
        match c with
        | .list items => do return "[" ++ ", ".intercalate (← items.mapM inside) ++ "]"
        | .table entries => do
          return braced (← entries.mapM fun (k, v) =>
            return (← checked k k.literal) ++ ": " ++ (← inside v))
        | .set [] => .ok "set()"
        | .set members => do return braced (← members.mapM fun s => checked s s.literal)

def plain (d : Document) : Value → Except LongInteger String
  | .scalar s => checked s s.plain
  | v => literal d (2 * d.collections.size + 2) [] v

end Document

def read (text : List Char) : Except Fault (Option Document) := do
  match ← Graph.ofTokens? (Token.ofText text) with
  | none => return none
  | some (g, root) => return some (← Document.ofGraph g root)

end DependencyAudit.Yaml
