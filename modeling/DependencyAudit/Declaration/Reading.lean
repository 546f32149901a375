import DependencyAudit.Declaration.Keyword
import DependencyAudit.Text.Blank
import DependencyAudit.Text.Scan
import DependencyAudit.Text.Word

/-!
Reading declarations from the lines of a build script. On each line every family
of keywords is looked for on its own, from left to right and without overlap; a
keyword is not looked for inside a longer word or behind a dot.
-/

namespace DependencyAudit

def isQuote (c : Char) : Bool := c == '\'' || c == '"'

def isNameChar (c : Char) : Bool := !isQuote c && c != ':' && !Text.isBlank c

def isVersionChar (c : Char) : Bool := !isQuote c && !Text.isBlank c

def literal? : List Char → Option (Coordinate × List Char)
  | [] => none
  | q :: s =>
    if isQuote q then do
      let (group, s) ← Text.run? isNameChar s
      let s ← Text.after? [':'] s
      let (artifact, s) ← Text.run? isNameChar s
      let s ← Text.after? [':'] s
      let (version, s) ← Text.run? isVersionChar s
      let s ← Text.after? [q] s
      return (⟨String.ofList group, String.ofList artifact, String.ofList version⟩, s)
    else none

/-- What stands behind white space, at most one parenthesis and white space. -/
def opened (s : List Char) : List Char :=
  match Text.trimLeft s with
  | '(' :: r => Text.trimLeft r
  | r => r

def occurrence? (family : Kind) (s : List Char) : Option (Coordinate × List Char) :=
  family.keywords.findSome? fun w => (Text.after? w.toList s).bind fun r => literal? (opened r)

def isBoundary : Option Char → Bool
  | none => true
  | some c => !Text.isWord c && c != '.'

def occurrenceBehind? (family : Kind) (previous : Option Char) (s : List Char) :
    Option (Coordinate × List Char) :=
  if isBoundary previous then occurrence? family s else none

def occurrences (family : Kind) (line : List Char) : List Coordinate :=
  Text.scan (occurrenceBehind? family) line

namespace Declaration

/-- Declarations of one line with the family of the keyword that found each. -/
def onLine (number : Int) (line : List Char) : List (Kind × Declaration) :=
  let kind := Kind.ofLine line
  let source := String.ofList (Text.trim line)
  Kind.all.flatMap fun family =>
    (occurrences family line).map fun c => (family, ⟨c, number, source, kind⟩)

def onLines (first : Int) : List String → List (List (Kind × Declaration))
  | [] => []
  | line :: rest => onLine first line.toList :: onLines (first + 1) rest

def ofLines (lines : List String) : List Declaration :=
  (onLines 1 lines).flatMap fun found => found.map (·.2)

end Declaration

/-- What the reading of a script remarks on. -/
inductive Remark
  | otherKind (line : Int) (family kind : Kind)
  | several (line : Int) (count : Nat)
  | total (count : Nat)
deriving DecidableEq, Repr

namespace Remark

def text : Remark → String
  | otherKind line family kind =>
    s!"line {line} matched the {family.name} pattern but reads as {kind.name}"
  | several line count => s!"line {line} produced {count} declarations"
  | total count => s!"parsed {count} declarations"

def onLine (found : List (Kind × Declaration)) : List Remark :=
  let others := found.filterMap fun (family, d) =>
    if family = d.kind then none else some (otherKind d.line family d.kind)
  match found with
  | (_, d) :: _ :: _ => others ++ [several d.line found.length]
  | _ => others

def ofLines (lines : List String) : List Remark :=
  (Declaration.onLines 1 lines).flatMap onLine ++ [total (Declaration.ofLines lines).length]

end Remark
end DependencyAudit
