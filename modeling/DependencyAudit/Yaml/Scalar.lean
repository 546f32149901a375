import DependencyAudit.Yaml.Cursor

/-!
Scalars as they are written: plain, quoted or as a block. Lines of a plain or a
quoted scalar are folded: one line end becomes a space, of several the first is
dropped. A reader takes its scalar off at a place and gives the place behind it.
-/

namespace DependencyAudit.Yaml

abbrev Piece := List Char × Cursor

def onto (front : List Char) (p : Piece) : Piece := (front ++ p.1, p.2)

/-- What a line end and the empty lines after it fold to. -/
def folded (first : Char) (breaks : List Char) : List Char :=
  (if first ≠ '\n' then [first] else if breaks.isEmpty then [' '] else []) ++ breaks

namespace Quoted

def simpleEscape? (c : Char) : Option Char :=
  [('0', '\x00'), ('a', '\x07'), ('b', '\x08'), ('t', '\t'), ('\t', '\t'), ('n', '\n'),
    ('v', '\x0b'), ('f', '\x0c'), ('r', '\r'), ('e', '\x1b'), (' ', ' '), ('"', '"'),
    ('\\', '\\'), ('/', '/'), ('N', '\u0085'), ('_', '\u00a0'), ('L', '\u2028'),
    ('P', '\u2029')].lookup c

/-- How many digits follow an escape that gives a code point. -/
def codeDigits? (c : Char) : Option Nat := [('x', 2), ('u', 4), ('U', 8)].lookup c

/-- The character of a code point; half of a surrogate pair has none, and U+FFFD stands for it. -/
def character (code : Nat) : Except Fault Char :=
  if 0x10FFFF < code then .error (.noCharacter code)
  else .ok (if code.isValidChar then Char.ofNat code else '\uFFFD')

/-- The empty lines at a place, and the blanks around them. -/
def breaks : Nat → Cursor → Except Fault Piece
  | 0, c => .ok ([], c)
  | fuel + 1, c =>
    if c.atMarker then fail .quotedScalar
    else
      let c := (c.spanWhile isBlankChar).2
      match c.lineBreak? with
      | none => .ok ([], c)
      | some (b, c) => (breaks fuel c).map (onto [b])

def gap (c : Cursor) : Except Fault Piece :=
  let (blanks, c) := c.spanWhile isBlankChar
  if c.rest.isEmpty then fail .quotedScalar
  else
    match c.lineBreak? with
    | none => .ok (blanks, c)
    | some (b, c) => (breaks c.rest.length c).map fun (bs, c) => (folded b bs, c)

def escape (c : Cursor) : Except Fault Piece :=
  match c.rest with
  | [] => fail .quotedScalar
  | x :: more =>
    match simpleEscape? x, codeDigits? x, c.lineBreak? with
    | some e, _, _ => .ok ([e], c.next)
    | none, some n, _ =>
      match Reading.hexNumber? (more.take n) with
      | some code =>
        if more.length < n then fail .quotedScalar
        else (character code).map fun e => ([e], c.advance (n + 1))
      | none => fail .quotedScalar
    | none, none, some (_, c) => breaks (c.rest.length + 1) c
    | none, none, none => fail .quotedScalar

/-- A word: all up to a blank, a line end or the closing quote. -/
def word (double : Bool) : Nat → Cursor → Except Fault Piece
  | 0, c => .ok ([], c)
  | fuel + 1, c =>
    match c.rest with
    | [] => .ok ([], c)
    | x :: more =>
      if isBlankChar x || isBreak x then .ok ([], c)
      else if double && x = '"' then .ok ([], c)
      else if double && x = '\\' then do
        let (e, c) ← escape c.next
        return onto e (← word double fuel c)
      else if !double && x = '\'' then
        if more.head? = some '\'' then do return onto ['\''] (← word double fuel (c.advance 2))
        else .ok ([], c)
      else do return onto [x] (← word double fuel c.next)

def words (double : Bool) : Nat → Cursor → Except Fault Piece
  | 0, _ => fail .quotedScalar
  | fuel + 1, c => do
    let (w, c) ← word double c.rest.length c
    if c.peek? 0 = some (if double then '"' else '\'') then return (w, c.next)
    else
      let (g, c) ← gap c
      return onto (w ++ g) (← words double fuel c)

end Quoted

def quoted (double : Bool) (c : Cursor) : Except Fault Piece :=
  Quoted.words double (c.rest.length + 1) c.next

namespace Plain

def flowMarks : List Char := [',', '?', '[', ']', '\x7b', '\x7d']

def endsKey (flow : Bool) (after : Option Char) : Bool :=
  endsWord after || (flow && after.any fun c => [',', '[', ']', '\x7b', '\x7d'].contains c)

/-- The longest word at the front of a text. -/
def word (flow : Bool) : List Char → List Char
  | [] => []
  | x :: more =>
    if isBlankChar x || isBreak x || (x = ':' && endsKey flow more.head?)
      || (flow && flowMarks.contains x) then []
    else x :: word flow more

/-- Empty lines at a place; nothing is left of them before a marker. -/
def breaks : Nat → Cursor → Option (List Char) × Cursor
  | 0, c => (some [], c)
  | fuel + 1, c =>
    let c := c.skipSpaces
    match c.lineBreak? with
    | none => (some [], c)
    | some (b, c) =>
      if c.atMarker then (none, c)
      else
        let (bs, c) := breaks fuel c
        (bs.map (b :: ·), c)

def gap (c : Cursor) : List Char × Bool × Cursor :=
  let (blanks, c) := c.spanWhile (· = ' ')
  match c.lineBreak? with
  | none => (blanks, false, c)
  | some (b, c) =>
    if c.atMarker then ([], true, c)
    else
      match breaks c.rest.length c with
      | (some bs, c) => (folded b bs, true, c)
      | (none, c) => ([], true, c)

/-- The words that follow a gap, up to one on a line that is indented too little. -/
def words (flow : Bool) (indent : Int) : Nat → List Char → Bool → Cursor → List Char × Bool × Cursor
  | 0, _, lineEnded, c => ([], lineEnded, c)
  | fuel + 1, before, lineEnded, c =>
    let w := if c.peek? 0 = some '#' then [] else word flow c.rest
    if w.isEmpty then ([], lineEnded, c)
    else
      let (after, lineEnded, c) := gap (c.advance w.length)
      if after.isEmpty || c.peek? 0 = some '#' || (!flow && (c.column : Int) < indent) then
        (before ++ w, lineEnded, c)
      else
        let (rest, lineEnded, c) := words flow indent fuel after lineEnded c
        (before ++ w ++ rest, lineEnded, c)

end Plain

def plain (flow : Bool) (indent : Int) (c : Cursor) : List Char × Bool × Cursor :=
  Plain.words flow indent (c.rest.length + 1) [] false c

namespace Block

inductive Chomping
  | clip
  | strip
  | keep
deriving DecidableEq, Repr

structure Header where
  chomping : Chomping
  increment : Option Nat
deriving DecidableEq, Repr

def chomping? : List Char → Option Chomping
  | '+' :: _ => some .keep
  | '-' :: _ => some .strip
  | _ => none

def increment? : List Char → Option Nat
  | c :: _ => if isDigit c then some (c.toNat - '0'.toNat) else none
  | [] => none

/-- The two indicators in either order, and the rest of their line. -/
def header (c : Cursor) : Except Fault (Header × Cursor) :=
  let first := chomping? c.rest
  let c := if first.isSome then c.next else c
  let increment := increment? c.rest
  let c := if increment.isSome then c.next else c
  let second := if first.isSome || increment.isNone then none else chomping? c.rest
  let c := if second.isSome then c.next else c
  if increment = some 0 || !endsItem (c.peek? 0) then fail .blockScalar
  else
    match c.endLine? with
    | some c => .ok (⟨(first.or second).getD .clip, increment⟩, c)
    | none => fail .blockScalar

def skipTo (column : Nat) : Nat → Cursor → Cursor
  | 0, c => c
  | fuel + 1, c =>
    if c.column < column && c.peek? 0 = some ' ' then skipTo column fuel c.next else c

/-- Empty lines, and the indentation of the line behind them. -/
def breaks (column : Nat) : Nat → Cursor → Piece
  | 0, c => ([], c)
  | fuel + 1, c =>
    let c := skipTo column column c
    match c.lineBreak? with
    | none => ([], c)
    | some (b, c) => onto [b] (breaks column fuel c)

/-- Leading empty lines, and the column of the deepest of them and the first other line. -/
def leading (deepest : Nat) : Nat → Cursor → List Char × Nat × Cursor
  | 0, c => ([], deepest, c)
  | fuel + 1, c =>
    let c := c.skipSpaces
    let deepest := max deepest c.column
    match c.lineBreak? with
    | none => ([], deepest, c)
    | some (b, c) =>
      let (bs, deepest, c) := leading deepest fuel c
      (b :: bs, deepest, c)

def chomped (chomping : Chomping) (last : List Char) (breaks : List Char) : List Char :=
  match chomping with
  | .clip => last
  | .strip => []
  | .keep => last ++ breaks

def lines (fold : Bool) (chomping : Chomping) (column : Nat) :
    Nat → List Char → Cursor → Piece
  | 0, _, c => ([], c)
  | fuel + 1, before, c =>
    let spaced := (c.peek? 0).any isBlankChar
    let (line, c) := c.spanWhile fun x => !isBreak x
    let (last, c) :=
      match c.lineBreak? with
      | some (b, c) => ([b], c)
      | none => ([], c)
    let (bs, c) := breaks column c.rest.length c
    if c.column = column && !c.rest.isEmpty then
      let between :=
        if fold && last = ['\n'] && !spaced && !(c.peek? 0).any isBlankChar then
          if bs.isEmpty then [' '] else []
        else last
      onto (before ++ line ++ between) (lines fold chomping column fuel bs c)
    else (before ++ line ++ chomped chomping last bs, c)

end Block

def block (fold : Bool) (indent : Int) (c : Cursor) : Except Fault Piece := do
  let (header, c) ← Block.header c
  let least := max 1 (indent + 1).toNat
  let (bs, column, c) :=
    match header.increment with
    | some n =>
      let column := least + n - 1
      let (bs, c) := Block.breaks column (c.rest.length + 1) c
      (bs, column, c)
    | none =>
      let (bs, deepest, c) := Block.leading 0 (c.rest.length + 1) c
      (bs, max least deepest, c)
  if c.column = column && !c.rest.isEmpty then
    return Block.lines fold header.chomping column (c.rest.length + 1) bs c
  else return (Block.chomped header.chomping [] bs, c)

end DependencyAudit.Yaml
