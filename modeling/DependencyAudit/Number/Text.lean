import DependencyAudit.Number.Shortest

/-!
How numbers are written. A binary fraction is written with the fewest digits
that read back, positional while the point stands less than four places before
the first digit and at most sixteen after it. A fixed number of places is
rounded from the exact value, a half to the even neighbour.
-/

namespace DependencyAudit

def zeros (n : Nat) : List Char := List.replicate n '0'

def natText (n : Nat) : List Char := Nat.toDigits 10 n

def intText (n : Int) : List Char :=
  if n < 0 then '-' :: natText n.natAbs else natText n.natAbs

namespace Decimal

def positional (d : Decimal) : List Char :=
  if d.point ≤ 0 then '0' :: '.' :: zeros d.point.natAbs ++ d.digits
  else
    let n := d.point.toNat
    let whole := d.digits.take n
    let fraction := d.digits.drop n
    whole ++ zeros (n - whole.length) ++ '.' :: (if fraction.isEmpty then ['0'] else fraction)

/-- The exponent has a sign and at least two digits. -/
def exponentText (e : Int) : List Char :=
  let digits := natText e.natAbs
  (if e < 0 then '-' else '+') :: zeros (2 - digits.length) ++ digits

def scientific (d : Decimal) : List Char :=
  d.digits.take 1 ++ (if d.digits.length ≤ 1 then [] else '.' :: d.digits.drop 1)
    ++ 'e' :: exponentText (d.point - 1)

def text (d : Decimal) : List Char :=
  if -4 < d.point ∧ d.point ≤ 16 then d.positional else d.scientific

end Decimal

structure Spelling where
  notANumber : String
  infinity : String

def Spelling.plain : Spelling := ⟨"nan", "inf"⟩

def signed (negative : Bool) (s : List Char) : List Char :=
  if negative then '-' :: s else s

def floatText (spelling : Spelling) (x : Float) : List Char :=
  match Parts.of x with
  | .notANumber => spelling.notANumber.toList
  | .infinite negative => signed negative spelling.infinity.toList
  | .finite negative 0 _ => signed negative ['0', '.', '0']
  | .finite negative m q => signed negative (Decimal.shortest m q).text

/-- `count / 10 ^ places`, written with that many places. -/
def placesText (count places : Nat) : List Char :=
  let digits := natText count
  let padded := zeros (places + 1 - digits.length) ++ digits
  let whole := padded.take (padded.length - places)
  if places = 0 then whole else whole ++ '.' :: padded.drop (padded.length - places)

/-- The value counted in units of the last of `places` decimal places. -/
def unitsOf (places significand : Nat) (exponent : Int) : Nat :=
  let value := scaled significand exponent places
  divToEven value.1 value.2

def fixedText (places : Nat) (x : Float) : List Char :=
  match Parts.of x with
  | .notANumber => Spelling.plain.notANumber.toList
  | .infinite negative => signed negative Spelling.plain.infinity.toList
  | .finite negative m q => signed negative (placesText (unitsOf places m q) places)

def roundTo (places : Nat) (x : Float) : Float :=
  match Parts.of x with
  | .finite negative m q => floatNearest negative (unitsOf places m q) (-places)
  | _ => x

def truncated? (x : Float) : Option Int :=
  match Parts.of x with
  | .finite negative m q =>
    let value := scaled m q 0
    let n : Int := value.1 / value.2
    some (if negative then -n else n)
  | _ => none

end DependencyAudit
