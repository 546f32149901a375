import DependencyAudit.Document.Calendar
import DependencyAudit.Text.Quoted
import DependencyAudit.Number.Reading

/-!
What can be wrong with a YAML text, and places in one. The layout of a text
decides its structure, so a place knows its line and its column. Texts come with
one line end; the other characters that end a line in YAML are kept.
-/

namespace DependencyAudit.Yaml

inductive Cause
  | hiddenCharacter
  | unknownToken
  | misplaced
  | missingColon
  | directive
  | anchor
  | tag
  | blockScalar
  | quotedScalar
  | noContent
  | undefinedHandle
  | undefinedAlias
  | repeatedAnchor
  | severalDocuments
  | unknownTag
  | otherNode
  | unhashableKey
  | merge
  | binary
deriving DecidableEq, Repr

/-- What is wrong, in short: the place in the text and what was read before it are left out. -/
def Cause.text : Cause → String
  | .hiddenCharacter => "special characters are not allowed"
  | .unknownToken => "found character that cannot start any token"
  | .misplaced => "sequence entries, mapping keys and mapping values are not allowed here"
  | .missingColon => "could not find expected ':'"
  | .directive => "malformed directive"
  | .anchor => "malformed anchor or alias"
  | .tag => "malformed tag"
  | .blockScalar => "malformed block scalar"
  | .quotedScalar => "malformed quoted scalar"
  | .noContent => "did not find the expected node content"
  | .undefinedHandle => "found undefined tag handle"
  | .undefinedAlias => "found undefined alias"
  | .repeatedAnchor => "found duplicate anchor"
  | .severalDocuments => "expected a single document in the stream"
  | .unknownTag => "could not determine a constructor for the tag"
  | .otherNode => "found a node of another kind than the tag asks for"
  | .unhashableKey => "found unhashable key"
  | .merge => "expected a mapping or list of mappings for merging"
  | .binary => "failed to decode base64 data"

/-- A text is malformed, or it is well formed and a value in it cannot be had. -/
inductive Fault
  | malformed (cause : Cause)
  | noCharacter (code : Nat)
  | wholeNumber (base : Nat) (text : String)
  | tooLong (digits : Nat)
  | fraction (text : String)
  | emptyNumber
  | truthWord (text : String)
  | noMoment
  | tooLarge (f : TooLarge)
  /-- A moment was asked for where no text is. -/
  | noText
  /-- A text that stands inside itself, or nodes that are nested too deeply. -/
  | endless
  | calendar (f : Calendar.Fault)
deriving DecidableEq, Repr

def Fault.message : Fault → String
  | .malformed cause => cause.text
  | .noCharacter code =>
    if code < 0x80000000 then "chr() arg not in range(0x110000)"
    else "Python int too large to convert to C int"
  | .wholeNumber base text =>
    s!"invalid literal for int() with base {base}: " ++ Text.quotedStart text
  | .tooLong digits => Reading.tooLongMessage digits
  | .fraction text => s!"could not convert string to float: {Text.quotedString text}"
  | .emptyNumber => "string index out of range"
  | .truthWord text => Text.quotedString text
  | .noMoment => "'NoneType' object has no attribute 'groupdict'"
  | .tooLarge f => f.message
  | .noText => "expected string or bytes-like object, got 'list'"
  | .endless => "maximum recursion depth exceeded"
  | .calendar f => f.message

def fail {α : Type} (cause : Cause) : Except Fault α := .error (.malformed cause)

def isBreak (c : Char) : Bool := c = '\n' || c = '\u0085' || c = '\u2028' || c = '\u2029'

def isBlankChar (c : Char) : Bool := c = ' ' || c = '\t'

def endsLine (c : Option Char) : Bool := c.all isBreak

def endsItem (c : Option Char) : Bool := c.all fun c => c = ' ' || isBreak c

def endsWord (c : Option Char) : Bool := c.all fun c => isBlankChar c || isBreak c

structure Cursor where
  rest : List Char
  index : Nat
  line : Nat
  column : Nat

namespace Cursor

def start (text : List Char) : Cursor := ⟨text, 0, 0, 0⟩

def peek? (c : Cursor) (n : Nat) : Option Char := c.rest[n]?

/-- A byte order mark takes no column. -/
def past (c : Cursor) (x : Char) (rest : List Char) : Cursor :=
  if isBreak x then ⟨rest, c.index + 1, c.line + 1, 0⟩
  else ⟨rest, c.index + 1, c.line, if x = '\uFEFF' then c.column else c.column + 1⟩

def next (c : Cursor) : Cursor :=
  match c.rest with
  | [] => c
  | x :: rest => c.past x rest

def advance : Nat → Cursor → Cursor
  | 0, c => c
  | n + 1, c => advance n c.next

def spanWhile (p : Char → Bool) (c : Cursor) : List Char × Cursor :=
  let found := c.rest.takeWhile p
  (found, c.advance found.length)

def skipSpaces (c : Cursor) : Cursor := (c.spanWhile (· = ' ')).2

/-- Two of the line ends keep their own character, the others are line feeds. -/
def lineBreak? (c : Cursor) : Option (Char × Cursor) :=
  match c.rest with
  | x :: _ =>
    if x = '\u2028' || x = '\u2029' then some (x, c.next)
    else if isBreak x then some ('\n', c.next)
    else none
  | [] => none

/-- A marker between documents, which stands at the start of a line. -/
def atMarker (c : Cursor) : Bool :=
  let front := c.rest.take 3
  (front = ['-', '-', '-'] || front = ['.', '.', '.']) && endsWord (c.peek? 3)

def skipComment (c : Cursor) : Cursor :=
  if c.peek? 0 = some '#' then (c.spanWhile fun x => !isBreak x).2 else c

/-- The place behind the rest of a line that holds at most a comment. -/
def endLine? (c : Cursor) : Option Cursor :=
  let c := c.skipSpaces.skipComment
  if endsLine (c.peek? 0) then some ((c.lineBreak?.map (·.2)).getD c) else none

end Cursor
end DependencyAudit.Yaml
