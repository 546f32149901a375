import DependencyAudit.Document.Tree
import DependencyAudit.Text.Base64
import DependencyAudit.Text.Lines
import DependencyAudit.Text.Lowercase
import DependencyAudit.Yaml.Tag

/-!
The values of scalars, by their tags. A tag may ask for a value that the text
does not have; the fault then says what was tried.
-/

namespace DependencyAudit.Yaml

def withoutBars (s : List Char) : List Char := s.filter (· ≠ '_')

/-- The sign and the text behind it; a number is never empty. -/
def signAndRest (s : List Char) : Except Fault (Bool × List Char) :=
  if s.isEmpty then .error .emptyNumber else .ok (Reading.takeSign s)

def digitIn? (base : Nat) (c : Char) : Option Nat := (Reading.hexValue? c).filter (· < base)

/-- The digits of a number in a base; the mark of the base may stand before them. -/
def dropBaseMark (base : Nat) (s : List Char) : List Char :=
  match s with
  | '0' :: m :: r =>
    if [(2, 'b'), (8, 'o'), (16, 'x')].contains (base, m.toLower) then r else s
  | _ => s

def wholeDecimal (s : List Char) : Except Fault Int :=
  match Reading.wholeDigits s with
  | .ok (negative, digits) => .ok (Reading.signedValue negative digits)
  | .error .malformed => .error (.wholeNumber 10 (String.ofList s))
  | .error (.tooLong digits) => .error (.tooLong digits)

/-- A whole number in a base that is a power of two, which may have any length. -/
def wholeIn (base : Nat) (s : List Char) : Except Fault Int :=
  let (negative, t) := Reading.takeSign ((Reading.bare s).map Reading.usualDigit)
  match (dropBaseMark base t).mapM (digitIn? base) with
  | none | some [] => .error (.wholeNumber base (String.ofList s))
  | some values =>
    let n : Int := (values.foldl (fun n v => base * n + v) 0 : Nat)
    .ok (if negative then -n else n)

/-- Parts between colons, each sixty times what the next one is. -/
def colonParts (s : List Char) : List (List Char) := Text.splitAtEach ':' s

def magnitude (s : List Char) : Except Fault Int :=
  match s with
  | ['0'] => .ok 0
  | '0' :: 'b' :: r => wholeIn 2 r
  | '0' :: 'x' :: r => wholeIn 16 r
  | '0' :: _ => wholeIn 8 s
  | [] => .error .emptyNumber
  | _ =>
    if s.contains ':' then do
      let parts ← (colonParts s).mapM wholeDecimal
      return parts.foldl (fun n d => n * 60 + d) 0
    else wholeDecimal s

def intOf (text : List Char) : Except Fault Int := do
  let (negative, s) ← signAndRest (withoutBars text)
  let n ← magnitude s
  return if negative then -n else n

def fractionOf (s : List Char) : Except Fault Float :=
  match Reading.float? s with
  | some x => .ok x
  | none => .error (.fraction (String.ofList s))

/-- The sum of parts, the last first, each worth sixty of the one before it. What
a part is worth has to be a finite fraction. -/
def sumParts (worth : Nat) (sum : Float) : List Float → Except Fault Float
  | [] => .ok sum
  | x :: rest =>
    match (Number.int worth).toFloat with
    | .ok w => sumParts (worth * 60) (sum + x * w) rest
    | .error f => .error (.tooLarge f)

def sign (negative : Bool) (x : Float) : Float := if negative then -1 * x else 1 * x

def floatOf (text : List Char) : Except Fault Float := do
  let (negative, s) ← signAndRest (Text.lower (withoutBars text))
  if s = ".inf".toList then return sign negative (1 / 0)
  else if s = ".nan".toList then return 0 / 0
  else if s.contains ':' then
    let parts ← (colonParts s).mapM fractionOf
    return sign negative (← sumParts 1 0 parts.reverse)
  else return sign negative (← fractionOf s)

def truthOf (text : List Char) : Except Fault Bool :=
  let word := String.ofList (Text.lower text)
  match Tag.truthWords.lookup word with
  | some b => .ok b
  | none => .error (.truthWord word)

/-- The first six places of a fraction of a second. -/
def micro (fraction : List Char) : Nat :=
  let digits := fraction.take 6
  natOfDigits (digits ++ zeros (6 - digits.length))

def momentOf (text : List Char) : Except Fault Scalar :=
  match Stamp.ofText? (withoutEnd text) with
  | none => .error .noMoment
  | some t =>
    let found : Except Calendar.Fault Scalar :=
      match t.time with
      | none => (Calendar.date t.year t.month t.day).map .date
      | some (hour, minute, second, fraction) => do
        let offset ← t.offset.mapM Calendar.offset
        let date ← Calendar.date t.year t.month t.day
        let clock ← Calendar.clock hour minute second (micro fraction)
        return .moment ⟨date, clock, offset⟩
    found.mapError .calendar

def bytesOf (text : List Char) : Except Fault (List UInt8) :=
  match Text.Base64.decode text with
  | some bytes => if text.all (·.toNat < 0x80) then .ok bytes else fail .binary
  | none => fail .binary

/-- The value of a scalar with one of the tags that ask for a scalar. -/
def scalarOf (tag : Tag) (text : List Char) : Except Fault Scalar :=
  match tag with
  | .null => .ok .null
  | .bool => (truthOf text).map .bool
  | .int => (intOf text).map .int
  | .float => (floatOf text).map .float
  | .binary => (bytesOf text).map .bytes
  | .timestamp => momentOf text
  | .str => .ok (.text (String.ofList text))
  | .merge => fail .unknownTag
  | .value => fail .unknownTag
  | .other _ => fail .unknownTag
  | _ => fail .otherNode

end DependencyAudit.Yaml
