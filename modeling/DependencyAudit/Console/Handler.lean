import DependencyAudit.Console.Handler.Grammar
import DependencyAudit.Text.Quoted

/-!
What a tag hands over to a handler: the handler's name, and arguments in brackets
that are literals.
-/

namespace DependencyAudit.Console.Handler

/-- An expression of some tokens. They are read once more in search of mistakes if
they cannot be read. -/
def expression (found : List Token) (neverClosed : Option Char) : Except Fault Expression := do
  let m : Mode := ⟨neverClosed, false, false⟩
  match ← Grammar.read m found with
  | some e => return e
  | none =>
    let _ ← Grammar.read { m with searching := true } found
    throw .invalid

def literal (s : List Char) : Except Fault Unit := do
  if s.contains '\x00' then throw .nullCharacter
  let (found, neverClosed) ← tokens (s.length + 1) [] s
  (← expression found neverClosed).check

/-- The arguments that are handed over: those in brackets behind a name, none
behind a name alone, and else all of the text. -/
def arguments (s : List Char) : List Char :=
  match s.dropWhile fun c => Text.isWord c || c = '.' with
  | [] => ['(', ')']
  | c :: r =>
    if c = '(' && r.getLast? = some ')' && !r.contains '\n' then c :: r else s

end DependencyAudit.Console.Handler
