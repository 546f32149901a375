import DependencyAudit.Yaml.Layout
import DependencyAudit.Yaml.Tag

/-!
The nodes of a document. A node is known by its number, so that one that is named
can stand in several places, and inside itself too.
-/

namespace DependencyAudit.Yaml

inductive Content
  | scalar (text : List Char)
  | sequence (items : List Nat)
  | mapping (entries : List (Nat × Nat))
deriving DecidableEq, Repr

structure Node where
  tag : Tag
  content : Content
deriving DecidableEq, Repr

/-- Nodes by their numbers. -/
abbrev Graph := Array Node

namespace Graph

/-- A number that no node has stands for an empty node. -/
def node (g : Graph) (id : Nat) : Node := g[id]?.getD ⟨.null, .scalar []⟩

def put (g : Graph) (id : Nat) (n : Node) : Graph := g.setIfInBounds id n

end Graph

structure Stream where
  tokens : List Token
  depth : Nat
  anchors : List (String × Nat)
  graph : Graph

abbrev Compose := StateT Stream (Except Fault)

namespace Compose

/-- The next token. Where the reading of them ended, its fault counts. -/
def peek? : Compose (Option Token) := do
  match (← get).tokens.head? with
  | some (.broken f) => throw f
  | t => return t

def next : Compose Unit := modify fun s => { s with tokens := s.tokens.tail }

def refuse {α : Type} (cause : Cause) : Compose α := throw (.malformed cause)

def isNext (t : Token) : Compose Bool := return (← peek?) = some t

def isOneOf (ts : List Token) : Compose Bool := return (← peek?).any ts.contains

def accept (t : Token) : Compose Bool := do
  if ← isNext t then next; return true else return false

def expect (t : Token) : Compose Unit := do
  if !(← accept t) then refuse .noContent

def name (anchor : Option String) (id : Nat) : Compose Unit :=
  match anchor with
  | none => pure ()
  | some a => modify fun s => { s with anchors := (a, id) :: s.anchors }

def add (n : Node) : Compose Nat := do
  let id := (← get).graph.size
  modify fun s => { s with graph := s.graph.push n }
  return id

def empty : Compose Nat := add ⟨.null, .scalar []⟩

end Compose

/-- Where a node stands decides which collections may start there. -/
inductive Position
  | block
  /-- Entries of a sequence may stand at the indentation of their key. -/
  | entryOrBlock
  | flow
deriving DecidableEq, Repr

abbrev Handles := List (String × String)

def Handles.standard : Handles := [("!", "!"), ("!!", Tag.commonFront)]

/-- Marks before a node: its name, and its tag as written out. -/
structure Marks where
  anchor : Option String
  tag : Option String

namespace Marks

def tagOr (m : Marks) (default : Tag) : Tag :=
  match m.tag with
  | some name => if name = "!" then default else .ofName name
  | none => default

/-- A scalar without a tag counts as a text unless it is plain. -/
def scalarTag (m : Marks) (text : List Char) (plain : Bool) : Tag :=
  m.tagOr (if plain || m.tag.isSome then .ofScalar text else .str)

end Marks

namespace Compose

def anchor? : Compose (Option String) := do
  match ← peek? with
  | some (.anchor a) => next; return some a
  | _ => return none

/-- A tag as it is written: its handle, if it has one, and what follows that. -/
def tag? : Compose (Option (Option String × String)) := do
  match ← peek? with
  | some (.tag handle rest) => next; return some (handle, rest)
  | _ => return none

def fullTag (handles : Handles) : Option String × String → Compose String
  | (none, rest) => return rest
  | (some handle, rest) =>
    match handles.lookup handle with
    | some front => return front ++ rest
    | none => refuse .undefinedHandle

def marks (handles : Handles) : Compose Marks := do
  let first ← anchor?
  let tag ← tag?
  let second ← if first.isNone && tag.isSome then anchor? else pure none
  return ⟨first.or second, ← tag.mapM (fullTag handles)⟩

def checkNew (anchor : Option String) : Compose Unit := do
  let anchors := (← get).anchors
  if anchor.any fun a => (anchors.lookup a).isSome then refuse .repeatedAnchor

/-- Collections inside each other at most. That is what an interpreter whose stack holds 1000
calls has left where evidence is read, with two calls for each collection; it is a property of
the place where the program runs, and none of the format. -/
def nestingLimit : Nat := 487

/-- A collection under its name, which it has while its parts are read. -/
def collection (m : Marks) (tag : Tag) (content : Compose Content) : Compose Nat := do
  checkNew m.anchor
  let depth := (← get).depth
  if nestingLimit ≤ depth then throw .endless
  let id ← add ⟨tag, .scalar []⟩
  name m.anchor id
  modify fun s => { s with depth := depth + 1 }
  let content ← content
  modify fun s => { s with depth, graph := s.graph.put id ⟨tag, content⟩ }
  return id

def sequence (m : Marks) (items : Compose (List Nat)) : Compose Nat :=
  collection m (m.tagOr .seq) (return .sequence (← items))

def mapping (m : Marks) (entries : Compose (List (Nat × Nat))) : Compose Nat :=
  collection m (m.tagOr .map) (return .mapping (← entries))

def scalar (m : Marks) (tag : Tag) (text : List Char) : Compose Nat := do
  checkNew m.anchor
  let id ← add ⟨tag, .scalar text⟩
  name m.anchor id
  return id

/-- Nothing may stand for a node only behind a mark. -/
def emptyOr (m : Marks) : Compose Nat :=
  if m.anchor.isSome || m.tag.isSome then scalar m (m.tagOr .null) [] else refuse .noContent

mutual

def node (handles : Handles) (position : Position) : Nat → Compose Nat
  | 0 => refuse .noContent
  | fuel + 1 => do
    match ← peek? with
    | some (.alias a) =>
      next
      match (← get).anchors.lookup a with
      | some id => return id
      | none => refuse .undefinedAlias
    | _ =>
      let m ← marks handles
      match ← peek? with
      | some (.scalar text plain) =>
        next
        scalar m (m.scalarTag text plain) text
      | some .openList =>
        next
        sequence m (listItems handles true fuel)
      | some .openTable =>
        next
        mapping m (tablePairs handles true fuel)
      | some .entry =>
        if position = .entryOrBlock then sequence m (entries handles false fuel) else emptyOr m
      | some .sequenceStart =>
        if position = .flow then emptyOr m
        else
          next
          sequence m (entries handles true fuel)
      | some .mappingStart =>
        if position = .flow then emptyOr m
        else
          next
          mapping m (pairs handles fuel)
      | _ => emptyOr m

/-- A node, or nothing before one of the tokens that cannot start one. -/
def nodeOrEmpty (handles : Handles) (position : Position) (ends : List Token) :
    Nat → Compose Nat
  | 0 => refuse .noContent
  | fuel + 1 => do if ← isOneOf ends then empty else node handles position fuel

/-- What a key is mapped to; without the mark of a value it is nothing. -/
def valueOrEmpty (handles : Handles) (position : Position) (ends : List Token) :
    Nat → Compose Nat
  | 0 => refuse .noContent
  | fuel + 1 => do
    if ← accept .value then nodeOrEmpty handles position ends fuel else empty

/-- Entries of a sequence, which has a block of its own or shares that of its key. -/
def entries (handles : Handles) (own : Bool) : Nat → Compose (List Nat)
  | 0 => refuse .noContent
  | fuel + 1 => do
    if ← accept .entry then
      let ends := if own then [.entry, .blockEnd] else [.entry, .key, .value, .blockEnd]
      let item ← nodeOrEmpty handles .block ends fuel
      return item :: (← entries handles own fuel)
    else
      if own then expect .blockEnd
      return []

def pairs (handles : Handles) : Nat → Compose (List (Nat × Nat))
  | 0 => refuse .noContent
  | fuel + 1 => do
    if ← accept .key then
      let ends := [.key, .value, .blockEnd]
      let key ← nodeOrEmpty handles .entryOrBlock ends fuel
      let value ← valueOrEmpty handles .entryOrBlock ends fuel
      return (key, value) :: (← pairs handles fuel)
    else
      expect .blockEnd
      return []

def listItems (handles : Handles) (first : Bool) : Nat → Compose (List Nat)
  | 0 => refuse .noContent
  | fuel + 1 => do
    if ← accept .closeList then return []
    else
      if !first then expect .comma
      if ← accept .closeList then return []
      else if ← accept .key then
        let item ← mapping ⟨none, none⟩ do
          let key ← nodeOrEmpty handles .flow [.value, .comma, .closeList] fuel
          return [(key, ← valueOrEmpty handles .flow [.comma, .closeList] fuel)]
        return item :: (← listItems handles false fuel)
      else
        let item ← node handles .flow fuel
        return item :: (← listItems handles false fuel)

def tablePairs (handles : Handles) (first : Bool) : Nat → Compose (List (Nat × Nat))
  | 0 => refuse .noContent
  | fuel + 1 => do
    if ← accept .closeTable then return []
    else
      if !first then expect .comma
      if ← accept .closeTable then return []
      else if ← accept .key then
        let key ← nodeOrEmpty handles .flow [.value, .comma, .closeTable] fuel
        let value ← valueOrEmpty handles .flow [.comma, .closeTable] fuel
        return (key, value) :: (← tablePairs handles false fuel)
      else
        let key ← node handles .flow fuel
        return (key, ← empty) :: (← tablePairs handles false fuel)

end

/-- Directives before a document give it handles; there is one version of the format. -/
def directives (versioned : Bool) (handles : Handles) : Nat → Compose Handles
  | 0 => refuse .noContent
  | fuel + 1 => do
    match ← peek? with
    | some (.directive d) =>
      next
      match d with
      | .version major =>
        if versioned || major ≠ 1 then refuse .directive else directives true handles fuel
      | .handle name front =>
        if (handles.lookup name).isSome then refuse .directive
        else directives versioned ((name, front) :: handles) fuel
      | .other => directives versioned handles fuel
    | _ => return handles ++ Handles.standard

def isAtEnd : Compose Bool := return (← get).tokens.isEmpty

def startsExplicitly : Compose Bool := do
  match ← peek? with
  | some (.directive _) => return true
  | some .documentStart => return true
  | _ => return false

def explicitDocument (fuel : Nat) : Compose Nat := do
  let handles ← directives false [] fuel
  expect .documentStart
  if (← isAtEnd) || (← startsExplicitly) || (← isNext .documentEnd) then empty
  else node handles .block fuel

def skipEnds : Nat → Compose Unit
  | 0 => pure ()
  | fuel + 1 => do if ← accept .documentEnd then skipEnds fuel

/-- The only document, if there is one. -/
def document? (fuel : Nat) : Compose (Option Nat) := do
  if ← isAtEnd then return none
  else
    let root ←
      if ← startsExplicitly then explicitDocument fuel else node Handles.standard .block fuel
    skipEnds fuel
    if !(← isAtEnd) then
      let _ ← directives false [] fuel
      expect .documentStart
      refuse .severalDocuments
    return some root

end Compose

/-- The nodes of the document that tokens make up, and its root. Every step of the
reading takes a token or descends by a bounded number of calls. -/
def Graph.ofTokens? (tokens : List Token) : Except Fault (Option (Graph × Nat)) := do
  let (root, stream) ← (Compose.document? (4 * tokens.length + 8)).run ⟨tokens, 0, [], #[]⟩
  return root.map (stream.graph, ·)

end DependencyAudit.Yaml
