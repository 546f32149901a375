import DependencyAudit.Verdict.Basic
import DependencyAudit.Verdict.Tables

/-!
Totals over a list of verdicts. Sizes are added up in the order of the verdicts
and the sums are rounded to two places.
-/

namespace DependencyAudit

/-- How often each value occurs, in the order of first occurrence. -/
def tally {α : Type} [DecidableEq α] : List α → List (α × Nat)
  | [] => []
  | a :: rest =>
    let counts := tally rest
    (a, 1 + ((counts.find? fun c => c.1 = a).map (·.2)).getD 0) :: counts.filter fun c => c.1 ≠ a

structure Summary where
  total : Nat
  flagged : Nat
  categories : List (Category × Nat)
  recommendations : List (Recommendation × Nat)
  size : Float
  savings : Float

inductive SummaryFault
  | missingSize
  | tooLarge (f : TooLarge)
deriving DecidableEq, Repr

def SummaryFault.message : SummaryFault → String
  | .missingSize => "unsupported operand type(s) for +=: 'float' and 'NoneType'"
  | .tooLarge f => f.message

def sizeToAdd : Option Number → Except SummaryFault Float
  | none => .error .missingSize
  | some n => n.toFloat.mapError .tooLarge

def addSizes (sum : Float) : List (Option Number) → Except SummaryFault Float
  | [] => .ok sum
  | size :: rest => do
    let x ← sizeToAdd size
    addSizes (sum + x) rest

namespace Summary

def places : Nat := 2

def ofVerdicts (verdicts : List Verdict) : Except SummaryFault Summary := do
  let flagged := verdicts.filter (·.flagged)
  let size ← addSizes 0 (verdicts.map (·.size))
  let savings ← addSizes 0 (flagged.map (·.size))
  return {
    total := verdicts.length
    flagged := flagged.length
    categories := tally (verdicts.map (·.category))
    recommendations := tally (verdicts.filterMap (·.recommendation))
    size := roundTo places size
    savings := roundTo places savings }

end Summary
end DependencyAudit
