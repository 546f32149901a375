import DependencyAudit.Number.Basic

/-!
The shortest decimal that reads back as a given binary fraction. A fraction
stands for all reals that round to it; on the grid of `n` significant digits
only the two neighbours of the fraction can be among them, and the first grid
with one of them wins.
-/

namespace DependencyAudit

/-- `0.d₁d₂… * 10 ^ point`, the digits without zeros at their end. -/
structure Decimal where
  digits : List Char
  point : Int
deriving DecidableEq, Repr

namespace Decimal

/-- The power of ten just above `num / den`. -/
def pointAbove (num den : Nat) : Int :=
  if den ≤ num then (Nat.toDigits 10 (num / den)).length
  else 1 - (Nat.toDigits 10 (den / num)).length

def dropZeros (digits : List Char) : List Char :=
  (digits.reverse.dropWhile (· == '0')).reverse

/-- `count * 10 ^ tens` as a decimal. -/
def ofCount (count : Nat) (tens : Int) : Decimal :=
  let digits := Nat.toDigits 10 count
  ⟨dropZeros digits, digits.length + tens⟩

/-- The neighbour of `value` on the grid of steps `den` that lies between `low`
and `high`, ends included or not; of two, the nearer, and of two as near, the even. -/
def gridPoint? (value low high den : Nat) (ends : Bool) : Option Nat :=
  let below := value / den
  let above := below + 1
  let lowHit := if ends then low ≤ below * den else low < below * den
  let highHit := if ends then above * den ≤ high else above * den < high
  match decide lowHit, decide highHit with
  | true, true => some (divToEven value den)
  | true, false => some below
  | false, true => some above
  | false, false => none

/-- The shortest decimal for a positive significand. The gap below a power of
two is half the gap above it, except at the smallest exponent. -/
def shortest (significand : Nat) (exponent : Int) : Decimal :=
  let gap := if significand = Nat.pow 2 52 ∧ exponent ≠ -1074 then 1 else 2
  let ends := significand % 2 == 0
  let whole := scaled (4 * significand) (exponent - 2) 0
  let point := pointAbove whole.1 whole.2
  let onGrid (n : Nat) : Option Decimal :=
    let tens : Int := n - point
    let value := scaled (4 * significand) (exponent - 2) tens
    let low := scaled (4 * significand - gap) (exponent - 2) tens
    let high := scaled (4 * significand + 2) (exponent - 2) tens
    (gridPoint? value.1 low.1 high.1 value.2 ends).map (ofCount · (-tens))
  let last :=
    let value := scaled (4 * significand) (exponent - 2) (17 - point)
    ofCount (divToEven value.1 value.2) (point - 17)
  (((List.range 17).map (· + 1)).findSome? onGrid).getD last

end Decimal
end DependencyAudit
