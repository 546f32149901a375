import DependencyAudit.Text.Utf8
import DependencyAudit.Yaml.Scalar

/-!
Tokens of a YAML text, and those of them that are written with a mark of their
own: directives, anchors, aliases and tags.
-/

namespace DependencyAudit.Yaml

inductive Directive
  | version (major : Nat)
  | handle (name tagFront : String)
  | other
deriving DecidableEq, Repr

inductive Token
  | directive (d : Directive)
  | documentStart
  | documentEnd
  | sequenceStart
  | mappingStart
  | blockEnd
  | openList
  | closeList
  | openTable
  | closeTable
  | comma
  | entry
  | key
  | value
  | alias (name : String)
  | anchor (name : String)
  | tag (handle : Option String) (rest : String)
  | scalar (text : List Char) (plain : Bool)
  | broken (f : Fault)
deriving DecidableEq

namespace Token

def isNameChar (c : Char) : Bool := c.isAlphanum || c = '-' || c = '_'

def isUriChar (c : Char) : Bool :=
  c.isAlphanum || "-;/?:@&=+$,_.!~*'()[]%".toList.contains c

/-- The bytes that a text with escapes stands for. -/
def uriBytes : List Char → Option (List UInt8)
  | [] => some []
  | '%' :: a :: b :: s => do return UInt8.ofNat (← Reading.hexNumber? [a, b]) :: (← uriBytes s)
  | '%' :: _ => none
  | c :: s => (uriBytes s).map (UInt8.ofNat c.toNat :: ·)

def uri (c : Cursor) : Except Fault (String × Cursor) :=
  let (found, c) := c.spanWhile isUriChar
  match (uriBytes found).map Utf8.decode with
  | some (.ok text) => if found.isEmpty then fail .tag else .ok (String.ofList text, c)
  | _ => fail .tag

/-- A handle: an exclamation mark, or a name between two. -/
def handle (c : Cursor) : Except Fault (String × Cursor) :=
  if c.peek? 0 ≠ some '!' then fail .tag
  else if c.peek? 1 = some ' ' then .ok ("!", c.next)
  else
    let (name, c) := c.next.spanWhile isNameChar
    if c.peek? 0 = some '!' then .ok (String.ofList ('!' :: name ++ ['!']), c.next) else fail .tag

def name (c : Cursor) : Except Fault (String × Cursor) :=
  let (found, c) := c.next.spanWhile isNameChar
  let ended := endsWord (c.peek? 0) || (c.peek? 0).any "?:,]\x7d%@`".toList.contains
  if found.isEmpty || !ended then fail .anchor else .ok (String.ofList found, c)

/-- Whether a second exclamation mark ends a handle before the tag does. -/
def hasHandle (s : List Char) : Bool :=
  (s.takeWhile fun c => c ≠ ' ' && !isBreak c).contains '!'

def tagged (c : Cursor) : Except Fault (Token × Cursor) := do
  let (token, c) ←
    if c.peek? 1 = some '<' then do
      let (text, c) ← uri (c.advance 2)
      if c.peek? 0 = some '>' then pure (.tag none text, c.next) else fail .tag
    else if endsWord (c.peek? 1) then pure (.tag none "!", c.next)
    else do
      let (handle, c) ← if hasHandle c.next.rest then handle c else pure ("!", c.next)
      let (text, c) ← uri c
      pure (.tag (some handle) text, c)
  if endsItem (c.peek? 0) then return (token, c) else fail .tag

def number (c : Cursor) : Except Fault (Nat × Cursor) :=
  let (digits, c) := c.spanWhile isDigit
  if digits.isEmpty then fail .directive
  else if Reading.digitLimit < digits.length then .error (.tooLong digits.length)
  else .ok (natOfDigits digits, c)

/-- The version behind the name of its directive; only its first number counts. -/
def version (c : Cursor) : Except Fault (Nat × Cursor) := do
  let (major, c) ← number c.skipSpaces
  if c.peek? 0 ≠ some '.' then fail .directive
  else
    let (_, c) ← number c.next
    if endsItem (c.peek? 0) then return (major, c) else fail .directive

def handleDirective (c : Cursor) : Except Fault (Directive × Cursor) := do
  let (name, c) ← handle c.skipSpaces
  if c.peek? 0 ≠ some ' ' then fail .directive
  else
    let (front, c) ← uri c.skipSpaces
    if endsItem (c.peek? 0) then return (.handle name front, c) else fail .directive

def directiveLine (c : Cursor) : Except Fault (Directive × Cursor) := do
  let (name, c) := c.next.spanWhile isNameChar
  if name.isEmpty || !endsItem (c.peek? 0) then fail .directive
  else
    let (d, c) ←
      if name = "YAML".toList then
        (version c).map fun (major, c) => (Directive.version major, c)
      else if name = "TAG".toList then handleDirective c
      else pure (Directive.other, (c.spanWhile fun x => !isBreak x).2)
    match c.endLine? with
    | some c => return (d, c)
    | none => fail .directive

end Token
end DependencyAudit.Yaml
