import DependencyAudit.Verdict.Basic
import DependencyAudit.Verdict.Tables

/-!
How sizes and confidences are shown. A size below one megabyte is shown in
whole kilobytes, any other with one place in megabytes; a confidence is shown
as a whole percentage, cut off towards zero.
-/

namespace DependencyAudit

inductive FigureFault
  | tooLarge (f : TooLarge)
  | notANumber
  | infinite
  | noSize (kind : String)
  | noConfidence (kind : String)
  | notWhole (text : String)
  | tooLong (digits : Nat)
deriving DecidableEq, Repr

namespace FigureFault

def message : FigureFault → String
  | tooLarge f => f.message
  | notANumber => "cannot convert float NaN to integer"
  | infinite => "cannot convert float infinity to integer"
  | noSize kind => s!"'<' not supported between instances of '{kind}' and 'int'"
  | noConfidence kind =>
    s!"int() argument must be a string, a bytes-like object or a real number, not '{kind}'"
  | notWhole text => s!"invalid literal for int() with base 10: " ++ Text.quotedStart text
  | tooLong digits => Reading.tooLongMessage digits

end FigureFault

namespace Number

def isBelowOne : Number → Bool
  | .int n => n < 1
  | .real x => x < 1

def times1024 : Number → Number
  | .int n => .int (n * 1024)
  | .real x => .real (x * 1024)

/-- A fixed number of places behind the point. -/
def placed (places : Nat) (n : Number) : Except TooLarge String :=
  n.toFloat.map fun x => String.ofList (fixedText places x)

def whole : Number → Except FigureFault Int
  | .int n => .ok n
  | .real x =>
    match truncated? x with
    | some n => .ok n
    | none => .error (if x.isNaN then .notANumber else .infinite)

end Number

def missingFigure : String := "N/A"

def sizeText : Option Number → Except TooLarge String
  | none => .ok missingFigure
  | some n =>
    if n.isBelowOne then (n.times1024.placed 0).map (· ++ " KB")
    else (n.placed 1).map (· ++ " MB")

def confidenceText : Option Number → Except FigureFault String
  | none => .ok missingFigure
  | some n => n.whole.map fun k => String.ofList (intText k) ++ "%"

def recommendationText : Option Recommendation → String
  | none => "-"
  | some r => r.label

/-! Figures that come from elsewhere may be of any kind; truth values count as
one and zero, and a confidence may be written out. -/

def sizeFigure (t : Tree) : Except FigureFault (Option Number) :=
  match t with
  | .null => .ok none
  | .bool b => .ok (some (.int (if b then 1 else 0)))
  | .int n => .ok (some (.int n))
  | .float x => .ok (some (.real x))
  | t => .error (.noSize t.kindName)

def confidenceFigure (t : Tree) : Except FigureFault (Option Number) :=
  match t with
  | .null => .ok none
  | .bool b => .ok (some (.int (if b then 1 else 0)))
  | .int n => .ok (some (.int n))
  | .float x => .ok (some (.real x))
  | .text s =>
    match Reading.wholeDigits s.toList with
    | .ok (negative, digits) => .ok (some (.int (Reading.signedValue negative digits)))
    | .error .malformed => .error (.notWhole s)
    | .error (.tooLong digits) => .error (.tooLong digits)
  | t => .error (.noConfidence t.kindName)

namespace Verdict

def sentence (v : Verdict) : Except FigureFault String := do
  let confidence ← confidenceText v.confidence
  let size ← (sizeText v.size).mapError .tooLarge
  let action := if v.flagged then "remove?" else "keep"
  return s!"line {v.line}: {v.coordinate} -> {v.category.label} ({confidence}, ~{size}) {action}"

end Verdict
end DependencyAudit
