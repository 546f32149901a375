import DependencyAudit.Yaml.Cursor

/-!
Tags say what a node stands for. A plain scalar without one gets the tag of the
kind that it is written like: a truth value, a number, a date, nothing at all,
and otherwise a text.
-/

namespace DependencyAudit.Yaml

inductive Tag
  | null
  | bool
  | int
  | float
  | binary
  | timestamp
  | omap
  | pairs
  | set
  | str
  | seq
  | map
  | merge
  | value
  | other (name : String)
deriving DecidableEq, Repr

namespace Tag

/-- What stands before the short names of the common tags. -/
def commonFront : String := "tag:yaml.org,2002:"

def common : List (String × Tag) :=
  [("null", null), ("bool", bool), ("int", int), ("float", float), ("binary", binary),
    ("timestamp", timestamp), ("omap", omap), ("pairs", pairs), ("set", set), ("str", str),
    ("seq", seq), ("map", map), ("merge", merge), ("value", value)]

def ofName (name : String) : Tag :=
  ((common.find? fun t => commonFront ++ t.1 = name).map (·.2)).getD (other name)

def isKnown : Tag → Bool
  | merge => false
  | value => false
  | other _ => false
  | _ => true

def truthWords : List (String × Bool) :=
  [("yes", true), ("no", false), ("true", true), ("false", false), ("on", true), ("off", false)]

def spellings (w : String) : List String := [w, w.capitalize, w.toUpper]

def isOneOf (words : List String) (s : List Char) : Bool :=
  words.any fun w => (spellings w).any fun v => v.toList = s

def unsigned : List Char → List Char := fun s => (Reading.takeSign s).2

def isDigitOrBar (c : Char) : Bool := isDigit c || c = '_'

/-- Parts below sixty, each behind a colon, and what follows them. -/
def sixtieths : List Char → List Char
  | ':' :: a :: b :: s =>
    if isDigit a && isDigit b then
      if a ≤ '5' then sixtieths s else ':' :: a :: b :: s
    else if isDigit a then sixtieths (b :: s)
    else ':' :: a :: b :: s
  | [':', a] => if isDigit a then [] else [':', a]
  | s => s

def startsWithDigit (s : List Char) : Bool := s.head?.any isDigit

def startsWithNonzero (s : List Char) : Bool := s.head?.any fun c => isDigit c && c ≠ '0'

/-- Whole numbers may be binary, octal, decimal, hexadecimal or in sixtieths. -/
def isInt (s : List Char) : Bool :=
  let s := unsigned s
  let inside := fun (p : Char → Bool) (r : List Char) => !r.isEmpty && r.all fun c => p c || c = '_'
  let behind := s.dropWhile isDigitOrBar
  match s with
  | '0' :: 'b' :: r => inside (fun c => c = '0' || c = '1') r
  | '0' :: 'x' :: r =>
    inside (fun c => (Char.isDigit c) || ('a' ≤ c && c ≤ 'f') || ('A' ≤ c && c ≤ 'F')) r
  | '0' :: r => r.isEmpty || inside (fun c => '0' ≤ c && c ≤ '7') r
  | _ => startsWithNonzero s && (behind.isEmpty || (sixtieths behind).isEmpty)

/-- Nothing, or an exponent, which has to have a sign. -/
def isExponent : List Char → Bool
  | [] => true
  | e :: sign :: digits =>
    (e = 'e' || e = 'E') && (sign = '-' || sign = '+') && !digits.isEmpty && digits.all isDigit
  | _ => false

/-- Fractions have a point; one that starts with it has no sign. -/
def isFloat (s : List Char) : Bool :=
  match s with
  | '.' :: r =>
    (startsWithDigit r && isExponent (r.dropWhile isDigitOrBar))
      || [".inf", ".Inf", ".INF", ".nan", ".NaN", ".NAN"].any fun w => w.toList = s
  | _ =>
    let s := unsigned s
    let behind := s.dropWhile isDigitOrBar
    if startsWithDigit s then
      match behind with
      | '.' :: r => isExponent (r.dropWhile isDigitOrBar)
      | ':' :: _ =>
        match sixtieths behind with
        | '.' :: r => r.all isDigitOrBar
        | _ => false
      | _ => false
    else [".inf", ".Inf", ".INF"].any fun w => w.toList = s

end Tag

/-- A date as it is written, with the time of day behind it, if there is one. -/
structure Stamp where
  year : Nat
  month : Nat
  day : Nat
  /-- Month and day have two digits each. -/
  full : Bool
  time : Option (Nat × Nat × Nat × List Char)
  offset : Option Int
deriving DecidableEq, Repr

namespace Stamp

def number? (least most : Nat) (s : List Char) : Option (Nat × Nat × List Char) :=
  let digits := (s.take most).takeWhile isDigit
  if digits.length < least then none
  else some (natOfDigits digits, digits.length, s.drop digits.length)

def after? (c : Char) : List Char → Option (List Char)
  | [] => none
  | x :: s => if x = c then some s else none

def dropBlanks (s : List Char) : List Char := s.dropWhile isBlankChar

/-- The offset at the end, in seconds. -/
def offset? (s : List Char) : Option (Option Int) :=
  match s, dropBlanks s with
  | [], _ => some none
  | _, ['Z'] => some (some 0)
  | _, sign :: r => do
    let negative ← if sign = '-' then some true else if sign = '+' then some false else none
    let (hours, _, r) ← number? 1 2 r
    let minutes ←
      match r with
      | [] => some 0
      | _ => do
        let (minutes, _, rest) ← number? 2 2 (← after? ':' r)
        if rest.isEmpty then some minutes else none
    let seconds : Int := hours * 3600 + minutes * 60
    return some (if negative then -seconds else seconds)
  | _, [] => none

def time? (s : List Char) : Option ((Nat × Nat × Nat × List Char) × List Char) := do
  let s ←
    match s with
    | c :: r =>
      if c = 'T' || c = 't' then some r
      else if isBlankChar c then some (dropBlanks r)
      else none
    | [] => none
  let (hour, _, s) ← number? 1 2 s
  let (minute, _, s) ← number? 2 2 (← after? ':' s)
  let (second, _, s) ← number? 2 2 (← after? ':' s)
  match s with
  | '.' :: r => return ((hour, minute, second, r.takeWhile isDigit), r.dropWhile isDigit)
  | _ => return ((hour, minute, second, []), s)

def ofText? (s : List Char) : Option Stamp := do
  let (year, _, s) ← number? 4 4 s
  let (month, m, s) ← number? 1 2 (← after? '-' s)
  let (day, d, s) ← number? 1 2 (← after? '-' s)
  let full := m = 2 && d = 2
  if s.isEmpty then return ⟨year, month, day, full, none, none⟩
  else
    let (time, s) ← time? s
    return ⟨year, month, day, full, some time, ← offset? s⟩

/-- A plain scalar is a date alone only if month and day are written in full. -/
def isPlain (s : List Char) : Bool := (ofText? s).any fun t => t.full || t.time.isSome

end Stamp

/-- The tag of a plain scalar. The signs of tags, anchors and aliases, alone, are part
of the language and no text. -/
def Tag.ofPlain (s : List Char) : Tag :=
  if isOneOf (truthWords.map (·.1)) s then bool
  else if isFloat s then float
  else if isInt s then int
  else if s = ['<', '<'] then merge
  else if s.isEmpty || s = ['~'] || isOneOf ["null"] s then null
  else if Stamp.isPlain s then timestamp
  else if s = ['='] then value
  else if [['!'], ['&'], ['*']].contains s then other (commonFront ++ "yaml")
  else str

/-- A text without a line end behind it. -/
def withoutEnd (s : List Char) : List Char :=
  if s.getLast? = some '\n' then s.dropLast else s

/-- The tag of a scalar that says none. A line end behind the text does not count,
but is no text of its own. -/
def Tag.ofScalar (s : List Char) : Tag :=
  if s = ['\n'] then str else ofPlain (withoutEnd s)

end DependencyAudit.Yaml
