/-!
Numbers as settings and reports hold them: a whole number of any size, or a
binary fraction. A binary fraction is taken apart into sign, significand and
exponent, and everything that is written about it is exact arithmetic on those.
-/

namespace DependencyAudit

inductive Number
  | int (n : Int)
  | real (x : Float)
deriving DecidableEq

/-- A binary fraction by its value: `significand * 2 ^ exponent`, with a sign. -/
inductive Parts
  | notANumber
  | infinite (negative : Bool)
  | finite (negative : Bool) (significand : Nat) (exponent : Int)
deriving DecidableEq, Repr

namespace Parts

def ofBits (bits : Nat) : Parts :=
  let negative := decide (Nat.pow 2 63 ≤ bits)
  let exponent : Nat := bits / Nat.pow 2 52 % Nat.pow 2 11
  let fraction : Nat := bits % Nat.pow 2 52
  if exponent = 2047 then
    if fraction = 0 then infinite negative else notANumber
  else if exponent = 0 then finite negative fraction (-1074)
  else finite negative (Nat.pow 2 52 + fraction) ((exponent : Int) - 1075)

def of (x : Float) : Parts := ofBits x.toBits.toNat

end Parts

def addedUp : List Nat → Nat
  | [] => 0
  | n :: rest => n + addedUp rest

/-- A quotient to the nearest whole number; a half goes to the even neighbour. -/
def divToEven (num den : Nat) : Nat :=
  let q := num / den
  let r := num % den
  if 2 * r < den then q
  else if den < 2 * r then q + 1
  else if q % 2 = 0 then q else q + 1

/-- `significand * 2 ^ exponent * 10 ^ tens` as a quotient. -/
def scaled (significand : Nat) (exponent tens : Int) : Nat × Nat :=
  (significand * Nat.pow 2 exponent.toNat * Nat.pow 10 tens.toNat,
    Nat.pow 2 (-exponent).toNat * Nat.pow 10 (-tens).toNat)

/-- The binary fraction nearest to `digits * 10 ^ exponent`. Values far outside
the range are settled by their size alone. -/
def floatNearest (negative : Bool) (digits : Nat) (exponent : Int) : Float :=
  let size := (Nat.toDigits 10 digits).length + exponent
  let magnitude : Float :=
    if digits = 0 ∨ size < -400 then 0
    else if 400 < size then 1 / 0
    else if exponent < 0 then Float.ofScientific digits true exponent.natAbs
    else Float.ofScientific digits false exponent.natAbs
  if negative then -magnitude else magnitude

def floatOfInt? (n : Int) : Option Float :=
  let x := floatNearest (n < 0) n.natAbs 0
  if x.isInf then none else some x

/-- A whole number that no binary fraction is near to. -/
structure TooLarge where
deriving DecidableEq, Repr

def TooLarge.message (_ : TooLarge) : String := "int too large to convert to float"

def Number.toFloat : Number → Except TooLarge Float
  | .int n => match floatOfInt? n with
    | some x => .ok x
    | none => .error ⟨⟩
  | .real x => .ok x

end DependencyAudit
