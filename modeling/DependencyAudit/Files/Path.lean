import DependencyAudit.Text.Lines
import DependencyAudit.Text.Lowercase

/-!
Paths as written: a root and the parts behind it. Empty parts and single dots
say nothing and are dropped; a double dot is kept, since what it means depends
on the directories that exist.
-/

namespace DependencyAudit

structure Path where
  root : String
  parts : List String
deriving DecidableEq, Repr

namespace Path

/-- Two slashes at the front are a root of their own; any other number is one. -/
def rootOf : List Char → String
  | '/' :: '/' :: '/' :: _ => "/"
  | '/' :: '/' :: _ => "//"
  | '/' :: _ => "/"
  | _ => ""

def partsOf (s : List Char) : List String :=
  ((Text.splitAtEach '/' s).map String.ofList).filter fun p => p ≠ "" ∧ p ≠ "."

def ofString (s : String) : Path := ⟨rootOf s.toList, partsOf s.toList⟩

def text (p : Path) : String :=
  if p.root = "" ∧ p.parts = [] then "." else p.root ++ "/".intercalate p.parts

def isAbsolute (p : Path) : Bool := p.root ≠ ""

def name (p : Path) : String := p.parts.getLast?.getD ""

def parent (p : Path) : Path := ⟨p.root, p.parts.dropLast⟩

/-- The last dot of a name and what follows it, if something stands on both sides. -/
def suffixOf (name : List Char) : List Char :=
  let ending := (name.reverse.takeWhile (· ≠ '.')).reverse
  let front := name.take (name.length - ending.length)
  if front.length < 2 ∨ ending.isEmpty then [] else '.' :: ending

def kind (p : Path) : String := String.ofList (Text.lower (suffixOf p.name.toList))

def hasNull (p : Path) : Bool := p.parts.any fun part => part.toList.contains '\x00'

end Path
end DependencyAudit
