import DependencyAudit.Declaration.Basic
import DependencyAudit.Number.Basic

/-!
Verdicts on declarations: how essential a dependency is taken to be, how sure
that is, what it costs and what to do about it.
-/

namespace DependencyAudit

inductive Category
  | essential
  | framework
  | test
  | likelyUnused
  | unknown
deriving DecidableEq, Repr

namespace Category

def all : List Category := [essential, framework, test, likelyUnused, unknown]

def name : Category → String
  | essential => "ESSENTIAL"
  | framework => "FRAMEWORK"
  | test => "TEST"
  | likelyUnused => "LIKELY_UNUSED"
  | unknown => "UNKNOWN"

def label : Category → String
  | essential => "Essential"
  | framework => "Framework"
  | test => "Test"
  | likelyUnused => "Likely unused"
  | unknown => "Unknown"

def style : Category → String
  | essential => "green"
  | framework => "cyan"
  | test => "blue"
  | likelyUnused => "bold red"
  | unknown => "yellow"

def markup (c : Category) : String := s!"[{c.style}]{c.label}[/{c.style}]"

def ofName? (s : String) : Option Category := all.find? (·.name == s)

theorem ofName?_name (c : Category) : ofName? c.name = some c := by
  cases c <;> decide

end Category

inductive Recommendation
  | removeHighImpact
  | reviewLarge
  | testOnly
  | keep
deriving DecidableEq, Repr

namespace Recommendation

def all : List Recommendation := [removeHighImpact, reviewLarge, testOnly, keep]

def name : Recommendation → String
  | removeHighImpact => "REMOVE_HIGH_IMPACT"
  | reviewLarge => "REVIEW_LARGE"
  | testOnly => "TEST_ONLY"
  | keep => "KEEP"

def label : Recommendation → String
  | removeHighImpact => "High impact: remove to save significant size"
  | reviewLarge => "Large dependency: review whether it is needed"
  | testOnly => "Test-only dependency: not shipped"
  | keep => "Keep"

def ofName? (s : String) : Option Recommendation := all.find? (·.name == s)

theorem ofName?_name (r : Recommendation) : ofName? r.name = some r := by
  cases r <;> decide

end Recommendation

/-- What a verdict rests on. A verdict from elsewhere may name another basis. -/
inductive Mode
  | heuristic
  | evidence
  | other (name : String)
deriving DecidableEq, Repr

namespace Mode

def name : Mode → String
  | heuristic => "heuristic"
  | evidence => "evidence"
  | other s => s

def ofName (s : String) : Mode :=
  if s = "heuristic" then heuristic else if s = "evidence" then evidence else other s

end Mode

/-- Confidence is in percent and size in megabytes; a verdict from elsewhere may
leave either out. -/
structure Verdict where
  declaration : Declaration
  category : Category
  confidence : Option Number
  size : Option Number
  flagged : Bool
  recommendation : Option Recommendation
  mode : Mode
deriving DecidableEq

namespace Verdict

def line (v : Verdict) : Int := v.declaration.line

def coordinate (v : Verdict) : String := v.declaration.coordinate.text

end Verdict
end DependencyAudit
