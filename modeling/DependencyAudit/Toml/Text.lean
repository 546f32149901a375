import DependencyAudit.Document.Tree
import DependencyAudit.Json.Token
import DependencyAudit.Text.Scan

/-!
The lexical part of TOML: strings in their four forms, numbers, dates and times,
and the bare words that keys are made of. Each reader takes its piece off the
front of a text and gives back what is left.
-/

namespace DependencyAudit.Toml

inductive Cause
  | illegalCharacter
  | unterminated
  | escape
  | value
  | date
  | number
  | key
  | equals
  | unclosedList
  | unclosedTable
  | unclosedHeader
  | redefined
  | statement
  | lineEnd
  | nesting
deriving DecidableEq, Repr

/-- What is wrong, in short: texts that differ only in what was read name one cause here. -/
def Cause.text : Cause → String
  | .illegalCharacter => "Illegal character"
  | .unterminated => "Unterminated string"
  | .escape => "Invalid escape"
  | .value => "Invalid value"
  | .date => "Invalid date or datetime"
  | .number => "Number has too many digits"
  | .key => "Invalid initial character for a key part"
  | .equals => "Expected '=' after a key in a key/value pair"
  | .unclosedList => "Unclosed array"
  | .unclosedTable => "Unclosed inline table"
  | .unclosedHeader => "Expected ']' at the end of a table declaration"
  | .redefined => "Cannot overwrite a value"
  | .statement => "Invalid statement"
  | .lineEnd => "Expected newline or end of document after a statement"
  | .nesting => "Nested too deeply"

/-- A fault is placed by the number of characters left from it on, which may be those of the
whole value that it is in. -/
structure Fault where
  cause : Cause
  left : Nat
deriving DecidableEq, Repr

def Fault.message (text : List Char) (f : Fault) : String :=
  let before := text.take (text.length - f.left)
  let line := before.count '\n' + 1
  let column := (before.reverse.takeWhile (· != '\n')).length + 1
  s!"{f.cause.text} (at line {line}, column {column})"

def fail {α : Type} (cause : Cause) (s : List Char) : Except Fault α := .error ⟨cause, s.length⟩

def isSpace (c : Char) : Bool := c == ' ' || c == '\t'

def isSpaceOrNewline (c : Char) : Bool := isSpace c || c == '\n'

def skipSpace (s : List Char) : List Char := s.dropWhile isSpace

/-- Controls other than the tab stand in no string and no comment. -/
def isIllegal (c : Char) : Bool := (c.toNat < 0x20 && c != '\t') || c.toNat == 0x7F

def isIllegalInLines (c : Char) : Bool := isIllegal c && c != '\n'

def isBareKeyChar (c : Char) : Bool := c.isAlphanum || c == '-' || c == '_'

def skipComment (s : List Char) : Except Fault (List Char) :=
  match s with
  | '#' :: r =>
    if (r.takeWhile (· != '\n')).any isIllegal then fail .illegalCharacter s
    else .ok (r.dropWhile (· != '\n'))
  | _ => .ok s

/-! ## Strings -/

def simpleEscape? : Char → Option Char
  | 'b' => some '\x08'
  | 't' => some '\t'
  | 'n' => some '\n'
  | 'f' => some '\x0c'
  | 'r' => some '\r'
  | '"' => some '"'
  | '\\' => some '\\'
  | _ => none

/-- A character given by its code point in a fixed number of digits. -/
def codePoint (digits : Nat) (s : List Char) : Except Fault (Char × List Char) :=
  let word := s.take digits
  match Reading.hexNumber? word with
  | some n =>
    if word.length = digits ∧ n.isValidChar then .ok (Char.ofNat n, s.drop digits)
    else fail .escape s
  | none => fail .escape s

def escape (s : List Char) : Except Fault (Char × List Char) :=
  match s with
  | 'u' :: r => codePoint 4 r
  | 'U' :: r => codePoint 8 r
  | c :: r =>
    match simpleEscape? c with
    | some e => .ok (e, r)
    | none => fail .escape s
  | [] => fail .escape s

/-- What follows a backslash that hides the end of its line. -/
def hiddenLineEnd? (s : List Char) : Option (Except Fault (List Char)) :=
  match s with
  | c :: _ =>
    if isSpaceOrNewline c then
      match skipSpace s with
      | '\n' :: r => some (.ok (r.dropWhile isSpaceOrNewline))
      | [] => some (.ok [])
      | r => some (fail .escape r)
    else none
  | [] => none

def onto (c : Char) (r : Except Fault (List Char × List Char)) :
    Except Fault (List Char × List Char) :=
  r.map fun (content, rest) => (c :: content, rest)

def basic (lines : Bool) : Nat → List Char → Except Fault (List Char × List Char)
  | 0, s => fail .unterminated s
  | _, [] => fail .unterminated []
  | fuel + 1, c :: s =>
    if c == '"' then
      if !lines then .ok ([], s)
      else
        match s with
        | '"' :: '"' :: r => .ok ([], r)
        | _ => onto c (basic lines fuel s)
    else if c == '\\' then
      match if lines then hiddenLineEnd? s else none with
      | some r => do basic lines fuel (← r)
      | none => do
        let (e, r) ← escape s
        onto e (basic lines fuel r)
    else if if lines then isIllegalInLines c else isIllegal c then fail .illegalCharacter (c :: s)
    else onto c (basic lines fuel s)

def literal (s : List Char) : Except Fault (List Char × List Char) :=
  let content := s.takeWhile (· != '\'')
  match s.dropWhile (· != '\'') with
  | _ :: r => if content.any isIllegal then fail .illegalCharacter s else .ok (content, r)
  | [] => fail .unterminated s

def literalLines : List Char → Except Fault (List Char × List Char)
  | [] => fail .unterminated []
  | '\'' :: '\'' :: '\'' :: r => .ok ([], r)
  | c :: s =>
    if isIllegalInLines c then fail .illegalCharacter (c :: s) else onto c (literalLines s)

/-- Up to two quotes just before the closing ones belong to the string. -/
def closingQuotes (quote : Char) : List Char × List Char → List Char × List Char
  | (content, c :: d :: s) =>
    if c == quote then
      if d == quote then (content ++ [quote, quote], s) else (content ++ [quote], d :: s)
    else (content, c :: d :: s)
  | (content, [c]) => if c == quote then (content ++ [quote], []) else (content, [c])
  | r => r

def dropNewline : List Char → List Char
  | '\n' :: s => s
  | s => s

def string (s : List Char) : Except Fault (List Char × List Char) :=
  match s with
  | '"' :: '"' :: '"' :: r =>
    (basic true (r.length + 1) (dropNewline r)).map (closingQuotes '"')
  | '"' :: r => basic false (r.length + 1) r
  | '\'' :: '\'' :: '\'' :: r => (literalLines (dropNewline r)).map (closingQuotes '\'')
  | '\'' :: r => literal r
  | _ => fail .value s

/-! ## Numbers -/

/-- Digits of a class, with single underscores between them. -/
def moreDigits (p : Char → Bool) : List Char → List Char × List Char
  | [] => ([], [])
  | '_' :: c :: s =>
    if p c then let (d, r) := moreDigits p s; (c :: d, r) else ([], '_' :: c :: s)
  | c :: s => if p c then let (d, r) := moreDigits p s; (c :: d, r) else ([], c :: s)

def digitRun? (p : Char → Bool) : List Char → Option (List Char × List Char)
  | c :: s => if p c then let (d, r) := moreDigits p s; some (c :: d, r) else none
  | [] => none

def valueIn (base : Nat) (digits : List Char) : Nat :=
  digits.foldl (fun n c => base * n + (Reading.hexValue? c).getD 0) 0

def inBase? (base : Nat) (s : List Char) : Option (Nat × List Char) :=
  let isIn (c : Char) : Bool := match Reading.hexValue? c with
    | some v => v < base
    | none => false
  (digitRun? isIn s).map fun (digits, r) => (valueIn base digits, r)

def based? : List Char → Option (Nat × List Char)
  | '0' :: 'x' :: s => inBase? 16 s
  | '0' :: 'b' :: s => inBase? 2 s
  | '0' :: 'o' :: s => inBase? 8 s
  | _ => none

def whole? : List Char → Option (List Char × List Char)
  | '0' :: s => some (['0'], s)
  | s => digitRun? isDigit s

def fraction : List Char → List Char × List Char
  | '.' :: s => (digitRun? isDigit s).getD ([], '.' :: s)
  | s => ([], s)

def exponent? : List Char → Option (Int × List Char)
  | c :: s =>
    if c == 'e' || c == 'E' then
      let (negative, t) := Reading.takeSign s
      (digitRun? isDigit t).map fun (digits, r) => (Reading.signedValue negative digits, r)
    else none
  | [] => none

def decimal? (s : List Char) : Option (Except Fault (Scalar × List Char)) :=
  let (negative, t) := Reading.takeSign s
  (whole? t).map fun (whole, r) =>
    let (places, r) := fraction r
    match exponent? r with
    | some (e, r) =>
      .ok (.float (floatNearest negative (natOfDigits (whole ++ places)) (e - places.length)), r)
    | none =>
      if !places.isEmpty then
        .ok (.float (floatNearest negative (natOfDigits (whole ++ places)) (-places.length)), r)
      else if Reading.digitLimit < whole.length then fail .number s
      else .ok (.int (Reading.signedValue negative whole), r)

def special? (s : List Char) : Option (Scalar × List Char) :=
  let (negative, t) := Reading.takeSign s
  match Text.after? ['i', 'n', 'f'] t with
  | some r => some (.float (if negative then -(1 / 0) else 1 / 0), r)
  | none => (Text.after? ['n', 'a', 'n'] t).map fun r => (.float (0 / 0), r)

/-! ## Dates and times -/

def fixedDigits? (n : Nat) (s : List Char) : Option (Nat × List Char) :=
  let word := s.take n
  if word.length = n ∧ word.all isDigit then some (natOfDigits word, s.drop n) else none

def bounded? (limit : Nat) (s : List Char) : Option (Nat × List Char) :=
  (fixedDigits? 2 s).filter fun r => r.1 < limit

/-- Digits past the sixth decimal place are read and dropped. -/
def microseconds (s : List Char) : Nat × List Char :=
  match s with
  | '.' :: r =>
    let digits := r.takeWhile isDigit
    if digits.isEmpty then (0, s)
    else (natOfDigits ((digits ++ zeros 6).take 6), r.dropWhile isDigit)
  | _ => (0, s)

def clock? (s : List Char) : Option (Clock × List Char) := do
  let (hour, s) ← bounded? 24 s
  let s ← Text.after? [':'] s
  let (minute, s) ← bounded? 60 s
  let s ← Text.after? [':'] s
  let (second, s) ← bounded? 60 s
  let (micro, s) := microseconds s
  return (⟨hour, minute, second, micro⟩, s)

def signedOffset? (s : List Char) : Option (Int × List Char) := do
  let (hour, s) ← bounded? 24 s
  let s ← Text.after? [':'] s
  let (minute, s) ← bounded? 60 s
  return (((hour * 60 + minute) * 60 : Nat), s)

def offset (s : List Char) : Option Int × List Char :=
  let read := match s with
    | 'Z' :: r => some (0, r)
    | 'z' :: r => some (0, r)
    | '+' :: r => signedOffset? r
    | '-' :: r => (signedOffset? r).map fun (n, r) => (-n, r)
    | _ => none
  match read with
  | some (n, r) => (some n, r)
  | none => (none, s)

def dateFields? (s : List Char) : Option ((Nat × Nat × Nat) × List Char) := do
  let (year, s) ← fixedDigits? 4 s
  let s ← Text.after? ['-'] s
  let (month, s) ← fixedDigits? 2 s
  let s ← Text.after? ['-'] s
  let (day, s) ← fixedDigits? 2 s
  if 1 ≤ month ∧ month ≤ 12 ∧ 1 ≤ day ∧ day ≤ 31 then return ((year, month, day), s) else none

/-- The time behind a date, set apart by a letter or one space. -/
def clockBehind? : List Char → Option (Clock × List Char)
  | c :: s => if c == 'T' || c == 't' || c == ' ' then clock? s else none
  | [] => none

def moment? (s : List Char) : Option (Except Fault (Scalar × List Char)) :=
  match dateFields? s with
  | some ((year, month, day), r) =>
    match Calendar.date year month day with
    | .error _ => some (fail .date s)
    | .ok date =>
      match clockBehind? r with
      | none => some (.ok (.date date, r))
      | some (clock, r) =>
        let (offset, r) := offset r
        some (.ok (.moment ⟨date, clock, offset⟩, r))
  | none => (clock? s).map fun (clock, r) => .ok (.clock clock, r)

/-! ## Values without parts -/

def scalar (s : List Char) : Except Fault (Scalar × List Char) :=
  match s with
  | '"' :: _ => (string s).map fun (content, r) => (.text (String.ofList content), r)
  | '\'' :: _ => (string s).map fun (content, r) => (.text (String.ofList content), r)
  | _ =>
    match Text.after? "true".toList s, Text.after? "false".toList s with
    | some r, _ => .ok (.bool true, r)
    | _, some r => .ok (.bool false, r)
    | none, none =>
      match moment? s with
      | some r => r
      | none =>
        match based? s with
        | some (n, r) => .ok (.int n, r)
        | none =>
          match decimal? s with
          | some r => r
          | none =>
            match special? s with
            | some r => .ok r
            | none => fail .value s

/-! ## Keys -/

def keyPart (s : List Char) : Except Fault (String × List Char) :=
  match s with
  | '\'' :: r => (literal r).map fun (content, r) => (String.ofList content, r)
  | '"' :: r => (basic false (r.length + 1) r).map fun (content, r) => (String.ofList content, r)
  | _ =>
    match Text.run? isBareKeyChar s with
    | some (word, r) => .ok (String.ofList word, r)
    | none => fail .key s

/-- The parts of a dotted key, with the white space behind it. -/
def dottedKey : Nat → List Char → Except Fault (List String × List Char)
  | 0, s => fail .nesting s
  | fuel + 1, s => do
    let (part, r) ← keyPart s
    match skipSpace r with
    | '.' :: r => do
      let (parts, r) ← dottedKey fuel (skipSpace r)
      return (part :: parts, r)
    | r => return ([part], r)

def key (s : List Char) : Except Fault (List String × List Char) := dottedKey (s.length + 1) s

end DependencyAudit.Toml
