import DependencyAudit.Declaration.Basic
import DependencyAudit.Text.Blank
import DependencyAudit.Text.Lines
import DependencyAudit.Text.Scan
import DependencyAudit.Text.Search
import DependencyAudit.Text.Word

/-!
Resolved coordinates in free text, such as the tree that a build tool prints. A
line may also say that another version was selected than the one requested; then
both stand as resolved.
-/

namespace DependencyAudit

/-- Texts of the resolved coordinates; order and repetition mean nothing. -/
abbrev Evidence := List String

namespace Evidence

def isNamePart (c : Char) : Bool := Text.isWord c || c == '.' || c == '-'

def isVersionPart (c : Char) : Bool := isNamePart c || c == '+'

def names? (s : List Char) : Option ((List Char × List Char) × List Char) := do
  let (group, s) ← Text.run? isNamePart s
  let s ← Text.after? [':'] s
  let (artifact, s) ← Text.run? isNamePart s
  let s ← Text.after? [':'] s
  return ((group, artifact), s)

def coordinate (group artifact version : List Char) : Coordinate :=
  ⟨String.ofList group, String.ofList artifact, String.ofList version⟩

def token? (s : List Char) : Option (Coordinate × List Char) := do
  let ((group, artifact), s) ← names? s
  let (version, s) ← Text.run? isVersionPart s
  return (coordinate group artifact version, s)

/-- A requested version and what follows the arrow behind it. The hyphen of an
arrow that stands close to the version is not part of the version. -/
def requested? (s : List Char) : Option (List Char × List Char) := do
  let (version, rest) ← Text.run? isVersionPart s
  match Text.after? ['-', '>'] (Text.trimLeft rest) with
  | some r => return (version, r)
  | none =>
    let r ← Text.after? ['>'] rest
    if version.getLast? = some '-' ∧ 2 ≤ version.length then return (version.dropLast, r)
    else none

def conflict? (s : List Char) : Option ((Coordinate × Coordinate) × List Char) := do
  let ((group, artifact), s) ← names? s
  let (requested, s) ← requested? s
  let (selected, s) ← Text.run? isVersionPart (Text.trimLeft s)
  return ((coordinate group artifact requested, coordinate group artifact selected), s)

def tokensOn (line : List Char) : List Coordinate := Text.scan (fun _ s => token? s) line

def conflictsOn (line : List Char) : List (Coordinate × Coordinate) :=
  Text.scan (fun _ s => conflict? s) line

def onLine (line : List Char) : List Coordinate :=
  tokensOn line ++ (conflictsOn line).map (·.2)

def ofText (text : List Char) : Evidence :=
  ((Text.splitLines text).flatMap onLine).map Coordinate.text

end Evidence
end DependencyAudit
