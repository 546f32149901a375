import DependencyAudit.Yaml.Token

/-!
The tokens of a text in the order in which a reader takes them. Indentation opens
and closes blocks. Anything that stands on one line may turn out to be a key when
a colon follows it, so a slot is left before it; the slots of keys are filled when
all is read, and the others vanish.
-/

namespace DependencyAudit.Yaml

/-- A token, or the place for the tokens that would announce a key. -/
inductive Item
  | token (t : Token)
  | slot (number : Nat)
deriving DecidableEq

/-- What may turn out to be a key. One that has to be a key is required to. -/
structure Candidate where
  slot : Nat
  required : Bool
  index : Nat
  line : Nat
  column : Nat
deriving DecidableEq, Repr

structure Layout where
  cursor : Cursor
  depth : Nat
  indent : Int
  outer : List Int
  keyAllowed : Bool
  /-- The candidate of each depth, the innermost first. -/
  candidates : List (Nat × Candidate)
  slots : Nat
  /-- Slots of keys, each with whether a mapping starts there. -/
  keys : List (Nat × Bool)
  /-- Last first. -/
  items : List Item

namespace Layout

def start (text : List Char) : Layout where
  cursor := .start text
  depth := 0
  indent := -1
  outer := []
  keyAllowed := true
  candidates := []
  slots := 0
  keys := []
  items := []

def push (l : Layout) (t : Token) : Layout := { l with items := .token t :: l.items }

def take (l : Layout) (n : Nat) (t : Token) : Layout :=
  { l.push t with cursor := l.cursor.advance n }

def inFlow (l : Layout) : Bool := l.depth ≠ 0

def skipBlanks : Nat → Layout → Layout
  | 0, l => l
  | fuel + 1, l =>
    let c := l.cursor.skipSpaces.skipComment
    match c.lineBreak? with
    | some (_, c) => skipBlanks fuel { l with cursor := c, keyAllowed := l.keyAllowed || !l.inFlow }
    | none => { l with cursor := c }

/-- How far behind its start a key may end. -/
def keyLimit : Nat := 1024

def isStale (c : Cursor) (k : Candidate) : Bool := k.line ≠ c.line || keyLimit < c.index - k.index

def dropStale (l : Layout) : Except Fault Layout :=
  if l.candidates.any fun k => isStale l.cursor k.2 && k.2.required then fail .missingColon
  else .ok { l with candidates := l.candidates.filter fun k => !isStale l.cursor k.2 }

def candidate? (l : Layout) : Option Candidate := l.candidates.lookup l.depth

def forget (l : Layout) : Layout :=
  { l with candidates := l.candidates.filter fun k => k.1 ≠ l.depth }

def dropCandidate (l : Layout) : Except Fault Layout :=
  if (l.candidate?.map (·.required)).getD false then fail .missingColon else .ok l.forget

/-- Leaves a slot before what may be a key. -/
def saveCandidate (l : Layout) : Except Fault Layout :=
  if l.keyAllowed then do
    let l ← l.dropCandidate
    let c := l.cursor
    let k : Candidate :=
      ⟨l.slots, !l.inFlow && l.indent = c.column, c.index, c.line, c.column⟩
    return { l with
      candidates := (l.depth, k) :: l.candidates
      slots := l.slots + 1
      items := .slot l.slots :: l.items }
  else .ok l

def unwind (l : Layout) (column : Int) : Layout :=
  if l.inFlow then l
  else
    let inner := (l.indent :: l.outer).takeWhile (column < ·)
    let left := (l.indent :: l.outer).dropWhile (column < ·)
    { l with
      indent := left.headD (-1)
      outer := left.tail
      items := List.replicate inner.length (.token .blockEnd) ++ l.items }

/-- Opens a block at a column, unless one is open there. -/
def opens (l : Layout) (column : Nat) : Bool := l.indent < column

def indentTo (l : Layout) (column : Nat) : Layout :=
  if l.opens column then { l with indent := column, outer := l.indent :: l.outer } else l

def openBlock (l : Layout) (t : Token) : Layout :=
  let column := l.cursor.column
  if l.opens column then (l.indentTo column).push t else l

/-- Directives and the marks between documents end all blocks. -/
def atTop (l : Layout) : Except Fault Layout :=
  (l.unwind (-1)).dropCandidate.map fun l => { l with keyAllowed := false }

def openBracket (l : Layout) (t : Token) : Except Fault Layout := do
  let l ← l.saveCandidate
  return { l with depth := l.depth + 1, keyAllowed := true }.take 1 t

def closeBracket (l : Layout) (t : Token) : Except Fault Layout := do
  let l ← l.dropCandidate
  return { l with depth := l.depth - 1, keyAllowed := false }.take 1 t

def comma (l : Layout) : Except Fault Layout := do
  let l ← l.dropCandidate
  return { l with keyAllowed := true }.take 1 .comma

/-- The mark of an entry or of a key that is announced. -/
def mark (l : Layout) (opening t : Token) (keyAllowed : Bool) : Except Fault Layout :=
  if !l.inFlow && !l.keyAllowed then fail .misplaced
  else do
    let l := if l.inFlow then l else l.openBlock opening
    let l ← { l with keyAllowed }.dropCandidate
    return l.take 1 t

def value (l : Layout) : Except Fault Layout :=
  match l.candidate? with
  | some k =>
    let opens := !l.inFlow && l.opens k.column
    let l := if l.inFlow then l else l.indentTo k.column
    .ok ({ l.forget with keys := (k.slot, opens) :: l.keys, keyAllowed := false }.take 1 .value)
  | none => l.mark .mappingStart .value !l.inFlow

/-- A token that may be a key, read from the place on. -/
def word (l : Layout) (read : Cursor → Except Fault (Token × Cursor)) : Except Fault Layout := do
  let l ← l.saveCandidate
  let (t, cursor) ← read l.cursor
  return { l.push t with cursor, keyAllowed := false }

def quotedToken (double : Bool) (c : Cursor) : Except Fault (Token × Cursor) :=
  (quoted double c).map fun (text, c) => (.scalar text false, c)

def plainWord (l : Layout) : Except Fault Layout := do
  let l ← l.saveCandidate
  let (text, keyAllowed, cursor) := plain l.inFlow (l.indent + 1) l.cursor
  return { l.push (.scalar text true) with cursor, keyAllowed }

def blockWord (l : Layout) (fold : Bool) : Except Fault Layout := do
  let l ← l.dropCandidate
  let (text, cursor) ← block fold l.indent l.cursor.next
  return { l.push (.scalar text false) with cursor, keyAllowed := true }

def startsPlain (inFlow : Bool) (c : Char) (after : Option Char) : Bool :=
  !(isBlankChar c || isBreak c || "-?:,[]\x7b\x7d#&*!|>'\"%@`".toList.contains c)
    || (!endsWord after && (c = '-' || (!inFlow && (c = '?' || c = ':'))))

/-- The next token, which starts with the given character. -/
def step (l : Layout) (c : Char) : Except Fault Layout := do
  let l := (← l.dropStale).unwind l.cursor.column
  let after := l.cursor.peek? 1
  let first := l.cursor.column = 0
  if c = '%' && first then
    let l ← l.atTop
    let (d, cursor) ← Token.directiveLine l.cursor
    return { l.push (.directive d) with cursor }
  else if first && l.cursor.atMarker then
    return (← l.atTop).take 3 (if c = '-' then .documentStart else .documentEnd)
  else if c = '[' then l.openBracket .openList
  else if c = '\x7b' then l.openBracket .openTable
  else if c = ']' then l.closeBracket .closeList
  else if c = '\x7d' then l.closeBracket .closeTable
  else if c = ',' then l.comma
  else if c = '-' && endsWord after then l.mark .sequenceStart .entry true
  else if c = '?' && (l.inFlow || endsWord after) then l.mark .mappingStart .key !l.inFlow
  else if c = ':' && (l.inFlow || endsWord after) then l.value
  else if c = '*' then l.word fun c => (Token.name c).map fun (s, c) => (.alias s, c)
  else if c = '&' then l.word fun c => (Token.name c).map fun (s, c) => (.anchor s, c)
  else if c = '!' then l.word Token.tagged
  else if c = '|' && !l.inFlow then l.blockWord false
  else if c = '>' && !l.inFlow then l.blockWord true
  else if c = '\'' then l.word (quotedToken false)
  else if c = '"' then l.word (quotedToken true)
  else if startsPlain l.inFlow c after then l.plainWord
  else fail .unknownToken

def finish (l : Layout) : Except Fault Layout := do
  ((← l.dropStale).unwind (-1)).dropCandidate

/-- The items before all that may still be a key. No item behind one of those is
given away before it is settled. -/
def given (l : Layout) : List Item :=
  let unsettled := (l.candidates.filter fun k => !isStale l.cursor k.2).map (Item.slot ·.2.slot)
  l.items.reverse.takeWhile fun i => !unsettled.contains i

/-- Reads to the end, or to the first fault, which follows the items that were given. -/
def run : Nat → Layout → Layout
  | 0, l => l
  | fuel + 1, l =>
    let there := l.skipBlanks (l.cursor.rest.length + 1)
    let after :=
      match there.cursor.rest with
      | [] => there.finish
      | c :: _ => there.step c
    match after with
    | .error f => { l with items := .token (.broken f) :: l.given.reverse }
    | .ok next => if there.cursor.rest.isEmpty then next else run fuel next

def filling (keys : List (Nat × Bool)) : Item → List Token
  | .token t => [t]
  | .slot n =>
    match keys.lookup n with
    | some true => [.mappingStart, .key]
    | some false => [.key]
    | none => []

end Layout

/-- Code points that may stand in a text as they are. -/
def isShown (c : Char) : Bool :=
  let n := c.toNat
  n = 0x09 || n = 0x0A || n = 0x0D || (0x20 ≤ n && n ≤ 0x7E) || n = 0x85
    || (0xA0 ≤ n && n ≤ 0xD7FF) || (0xE000 ≤ n && n ≤ 0xFFFD) || 0x10000 ≤ n

/-- The tokens of a text; a fault stands where the reading of them ended. -/
def Token.ofText (text : List Char) : List Token :=
  if !text.all isShown then [.broken (.malformed .hiddenCharacter)]
  else
    let text := if text.head? = some '\uFEFF' then text.tail else text
    let l := (Layout.start text).run (text.length + 1)
    l.items.reverse.flatMap (Layout.filling l.keys)

end DependencyAudit.Yaml
