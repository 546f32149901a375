import DependencyAudit.Document.Tree
import DependencyAudit.Number.Reading
import DependencyAudit.Text.Search

/-!
JSON text as tokens, each with its place. A token that cannot be completed
carries what is wrong with it; whether that matters depends on what the reader
expects at its place.
-/

namespace DependencyAudit.Json

inductive Cause
  | byteOrderMark
  | value
  | propertyName
  | colon
  | comma
  | extra
  | controlCharacter
  | unterminated
  | escape
  | unicodeEscape
deriving DecidableEq, Repr

def Cause.text : Cause → String
  | .byteOrderMark => "Unexpected UTF-8 BOM (decode using utf-8-sig)"
  | .value => "Expecting value"
  | .propertyName => "Expecting property name enclosed in double quotes"
  | .colon => "Expecting ':' delimiter"
  | .comma => "Expecting ',' delimiter"
  | .extra => "Extra data"
  | .controlCharacter => "Invalid control character at"
  | .unterminated => "Unterminated string starting at"
  | .escape => "Invalid \\escape"
  | .unicodeEscape => "Invalid \\uXXXX escape"

structure Fault where
  cause : Cause
  position : Nat
deriving DecidableEq, Repr

inductive Token
  | openList
  | closeList
  | openTable
  | closeTable
  | colon
  | comma
  | value (s : Scalar)
  | string (s : List Char)
  /-- A string with half of a surrogate pair in it. -/
  | halved (s : List Char)
  | badString (f : Fault)
  | longNumber (digits : Nat)
  | junk
deriving DecidableEq

structure Placed where
  token : Token
  position : Nat
deriving DecidableEq

def isSpace (c : Char) : Bool := [' ', '\t', '\n', '\r'].contains c

def simpleEscape? : Char → Option Char
  | '"' => some '"'
  | '\\' => some '\\'
  | '/' => some '/'
  | 'b' => some '\x08'
  | 'f' => some '\x0c'
  | 'n' => some '\n'
  | 'r' => some '\r'
  | 't' => some '\t'
  | _ => none

def isHighSurrogate (n : Nat) : Bool := 0xD800 ≤ n && n ≤ 0xDBFF

def isLowSurrogate (n : Nat) : Bool := 0xDC00 ≤ n && n ≤ 0xDFFF

def joinSurrogates (high low : Nat) : Char :=
  Char.ofNat (0x10000 + (high - 0xD800) * 0x400 + (low - 0xDC00))

/-- The character of a code point on its own; half of a pair has none. -/
def loneUnit (n : Nat) : Option Char :=
  if isHighSurrogate n || isLowSurrogate n then none else some (Char.ofNat n)

def ontoContent (c : Option Char) (count : Nat) (r : Except Fault (List (Option Char) × Nat)) :
    Except Fault (List (Option Char) × Nat) :=
  r.map fun (content, n) => (c :: content, n + count)

/-- The content of a string after its opening quote, and the number of
characters up to and with the closing one. -/
def stringBody (start pos : Nat) : List Char → Except Fault (List (Option Char) × Nat)
  | [] => .error ⟨.unterminated, start⟩
  | '"' :: _ => .ok ([], 1)
  | ['\\'] => .error ⟨.unterminated, start⟩
  | '\\' :: 'u' :: a :: b :: c :: d :: '\\' :: 'u' :: e :: f :: g :: h :: s =>
    match Reading.hexNumber? [a, b, c, d], Reading.hexNumber? [e, f, g, h] with
    | none, _ => .error ⟨.unicodeEscape, pos + 1⟩
    | some high, second =>
      if isHighSurrogate high && !s.isEmpty then
        match second with
        | none => .error ⟨.unicodeEscape, pos + 7⟩
        | some low =>
          if isLowSurrogate low then
            ontoContent (some (joinSurrogates high low)) 12 (stringBody start (pos + 12) s)
          else
            ontoContent (loneUnit high) 6
              (stringBody start (pos + 6) ('\\' :: 'u' :: e :: f :: g :: h :: s))
      else
        ontoContent (loneUnit high) 6
          (stringBody start (pos + 6) ('\\' :: 'u' :: e :: f :: g :: h :: s))
  | '\\' :: 'u' :: a :: b :: c :: d :: s =>
    match Reading.hexNumber? [a, b, c, d] with
    | some n =>
      if s.isEmpty then .error ⟨.unicodeEscape, pos + 1⟩
      else ontoContent (loneUnit n) 6 (stringBody start (pos + 6) s)
    | none => .error ⟨.unicodeEscape, pos + 1⟩
  | '\\' :: 'u' :: _ => .error ⟨.unicodeEscape, pos + 1⟩
  | '\\' :: c :: s =>
    match simpleEscape? c with
    | some e => ontoContent (some e) 2 (stringBody start (pos + 2) s)
    | none => .error ⟨.escape, pos⟩
  | c :: s =>
    if c.toNat < 0x20 then .error ⟨.controlCharacter, pos⟩
    else ontoContent (some c) 1 (stringBody start (pos + 1) s)
termination_by s => s.length

def stringToken (content : List (Option Char)) : Token :=
  let s := content.map (·.getD '\uFFFD')
  if content.contains none then .halved s else .string s

def takeDigits (s : List Char) : List Char × List Char :=
  (s.takeWhile isDigit, s.dropWhile isDigit)

/-- A point with at least one digit after it. -/
def fraction : List Char → List Char × List Char
  | '.' :: s => if (takeDigits s).1.isEmpty then ([], '.' :: s) else takeDigits s
  | s => ([], s)

def exponentDigits (s : List Char) : Option (Int × List Char) :=
  let (negative, t) := Reading.takeSign s
  let (digits, rest) := takeDigits t
  if digits.isEmpty then none else some (Reading.signedValue negative digits, rest)

def exponent : List Char → Option (Int × List Char)
  | 'e' :: s => exponentDigits s
  | 'E' :: s => exponentDigits s
  | _ => none

def number? (negative : Bool) (s : List Char) : Option (Token × List Char) :=
  let (whole, afterWhole) :=
    match s with
    | '0' :: r => (['0'], r)
    | _ => takeDigits s
  let (places, afterPlaces) := fraction afterWhole
  if whole.isEmpty then none
  else
    match exponent afterPlaces with
    | some (e, rest) =>
      some (.value (.float (floatNearest negative (natOfDigits (whole ++ places))
        (e - places.length))), rest)
    | none =>
      if !places.isEmpty then
        some (.value (.float (floatNearest negative (natOfDigits (whole ++ places))
          (-places.length))), afterPlaces)
      else if Reading.digitLimit < whole.length then some (.longNumber whole.length, afterWhole)
      else some (.value (.int (Reading.signedValue negative whole)), afterWhole)

def words : List (List Char × Scalar) :=
  [("null".toList, .null), ("true".toList, .bool true), ("false".toList, .bool false),
    ("NaN".toList, .float (0 / 0)), ("Infinity".toList, .float (1 / 0)),
    ("-Infinity".toList, .float (-(1 / 0)))]

def word? (s : List Char) : Option (Token × List Char) :=
  words.findSome? fun (w, v) => (Text.after? w s).map fun r => (.value v, r)

def numberOrWord (s : List Char) : Token × List Char :=
  match word? s with
  | some r => r
  | none =>
    let read :=
      match s with
      | '-' :: r => number? true r
      | _ => number? false s
    read.getD (.junk, s.drop 1)

def front (pos : Nat) (c : Char) (s : List Char) : Token × Nat :=
  match c with
  | '[' => (.openList, 0)
  | ']' => (.closeList, 0)
  | '\x7b' => (.openTable, 0)
  | '\x7d' => (.closeTable, 0)
  | ':' => (.colon, 0)
  | ',' => (.comma, 0)
  | '"' =>
    match stringBody pos (pos + 1) s with
    | .ok (content, n) => (stringToken content, n)
    | .error f => (.badString f, s.length)
  | _ =>
    let (token, rest) := numberOrWord (c :: s)
    (token, s.length - rest.length)

/-- Tokens of the text at `pos`, after `skip` characters that belong to the last one. -/
def tokensFrom (pos : Nat) : Nat → List Char → List Placed
  | _, [] => []
  | skip + 1, _ :: s => tokensFrom (pos + 1) skip s
  | 0, c :: s =>
    if isSpace c then tokensFrom (pos + 1) 0 s
    else
      let (token, n) := front pos c s
      ⟨token, pos⟩ :: tokensFrom (pos + 1) n s

def tokens (s : List Char) : List Placed := tokensFrom 0 0 s

end DependencyAudit.Json
