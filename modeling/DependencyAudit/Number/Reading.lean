import DependencyAudit.Number.Basic
import DependencyAudit.Text.Blank
import DependencyAudit.Text.Digit

/-!
Numbers in free text. White space around them, decimal digits of any script and
single underscores between digits are accepted.
-/

namespace DependencyAudit

def isDigit (c : Char) : Bool := '0' ≤ c && c ≤ '9'

def natOfDigits (digits : List Char) : Nat :=
  digits.foldl (fun n c => 10 * n + (c.toNat - '0'.toNat)) 0

namespace Reading

/-- White space around a number; the four separators of records do not count. -/
def isSpace (c : Char) : Bool := Text.isBlank c && !(0x1C ≤ c.toNat && c.toNat ≤ 0x1F)

def bare (s : List Char) : List Char :=
  ((s.dropWhile isSpace).reverse.dropWhile isSpace).reverse

/-- Digits of every script become the ten usual ones. -/
def usualDigit (c : Char) : Char :=
  match Text.digitValue? c with
  | some v => Char.ofNat ('0'.toNat + v)
  | none => c

/-- The text without underscores, if each stands between two digits. -/
def dropUnderscores (previous : Char) : List Char → Option (List Char)
  | [] => if previous == '_' then none else some []
  | c :: s =>
    if c == '_' then
      if isDigit previous then dropUnderscores c s else none
    else if previous == '_' && !isDigit c then none
    else (dropUnderscores c s).map (c :: ·)

def takeSign : List Char → Bool × List Char
  | '-' :: s => (true, s)
  | '+' :: s => (false, s)
  | s => (false, s)

def exponent? : List Char → Option Int
  | [] => some 0
  | c :: s =>
    if c == 'e' || c == 'E' then
      let (negative, digits) := takeSign s
      if digits.isEmpty || !digits.all isDigit then none
      else some (if negative then -(natOfDigits digits : Int) else natOfDigits digits)
    else none

/-- Digits, perhaps a point and more digits, perhaps an exponent. -/
def magnitude? (negative : Bool) (s : List Char) : Option Float :=
  let whole := s.takeWhile isDigit
  let (fraction, rest) :=
    match s.dropWhile isDigit with
    | '.' :: r => (r.takeWhile isDigit, r.dropWhile isDigit)
    | r => ([], r)
  if whole.isEmpty && fraction.isEmpty then none
  else (exponent? rest).map fun e =>
    floatNearest negative (natOfDigits (whole ++ fraction)) (e - fraction.length)

def float? (s : List Char) : Option Float := do
  let s ← dropUnderscores ' ' ((bare s).map usualDigit)
  let (negative, s) := takeSign s
  let word := String.ofList (s.map Char.toLower)
  if word == "inf" || word == "infinity" then
    return (if negative then -(1 / 0) else 1 / 0)
  else if word == "nan" then return 0 / 0
  else magnitude? negative s

def signedValue (negative : Bool) (digits : List Char) : Int :=
  if negative then -(natOfDigits digits : Int) else natOfDigits digits

def hexValue? (c : Char) : Option Nat :=
  if '0' ≤ c && c ≤ '9' then some (c.toNat - '0'.toNat)
  else if 'a' ≤ c && c ≤ 'f' then some (c.toNat - 'a'.toNat + 10)
  else if 'A' ≤ c && c ≤ 'F' then some (c.toNat - 'A'.toNat + 10)
  else none

def hexNumber? (digits : List Char) : Option Nat :=
  digits.foldl (fun n c => do return 16 * (← n) + (← hexValue? c)) (some 0)

/-- Decimal digits in a whole number that are read at most. -/
def digitLimit : Nat := 4300

inductive WholeFault
  | malformed
  | tooLong (digits : Nat)
deriving DecidableEq, Repr

def digitRun? (s : List Char) : Option (List Char × List Char) :=
  let run := s.takeWhile fun c => isDigit c || c == '_'
  (dropUnderscores ' ' run).map (·, s.drop run.length)

/-- Whether a whole number is negative, and its digits. They are counted before
what follows them is looked at. -/
def wholeDigits (s : List Char) : Except WholeFault (Bool × List Char) :=
  let (negative, s) := takeSign ((s.dropWhile isSpace).map usualDigit)
  match digitRun? s with
  | none => .error .malformed
  | some (digits, rest) =>
    if digitLimit < digits.length then .error (.tooLong digits.length)
    else if digits.isEmpty || !rest.all isSpace then .error .malformed
    else .ok (negative, digits)

def tooLongMessage (digits : Nat) : String :=
  s!"Exceeds the limit ({digitLimit} digits) for integer string conversion: value has "
    ++ s!"{digits} digits; use sys.set_int_max_str_digits() to increase the limit"

end Reading
end DependencyAudit
