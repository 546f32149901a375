import DependencyAudit.Console.Handler.Expression
import DependencyAudit.Console.Handler.Text

/-!
Readers of tokens. A reader takes tokens from the front, or does not match, or ends
everything with a fault. Whoever looks behind the last token while a bracket is open
finds that the bracket was never closed.
-/

namespace DependencyAudit.Console.Handler

abbrev Reader := StateT (List Token) (OptionT (Except Fault))

structure Mode where
  /-- The last bracket that is not closed anywhere. -/
  neverClosed : Option Char
  /-- Whether common mistakes are looked for. They are, once a text cannot be read. -/
  searching : Bool
  /-- Whether a bracket is open. -/
  inside : Bool

def Mode.inBracket (m : Mode) : Mode := { m with inside := true }

def Mode.plain (m : Mode) : Mode := { m with searching := false }

namespace Reader

def fault {α : Type} (f : Fault) : Reader α := fun _ => OptionT.mk (.error f)

def next? (m : Mode) : Reader (Option Token) := do
  match ← get, m.neverClosed with
  | .broken f :: _, _ => fault f
  | t :: _, _ => return some t
  | [], some c => fault (.unclosed c)
  | [], none => return none

def drop : Reader Unit := modify List.tail

def accept (m : Mode) (p : Token → Bool) : Reader Unit := do
  if (← next? m).any p then drop else failure

def mark (m : Mode) (s : String) : Reader Unit := accept m (· = .mark s)

def word (m : Mode) (s : String) : Reader Unit := accept m (· = .name s)

def oneOf (m : Mode) (signs : List String) : Reader String := do
  match ← next? m with
  | some (.mark s) => if signs.contains s then do drop; return s else failure
  | _ => failure

def closing (m : Mode) : Reader Unit := accept m fun t => t matches .closing _

def possibly {α : Type} (r : Reader α) : Reader (Option α) := (some <$> r) <|> pure none

/-- What a reader makes of the tokens, which stay where they are. -/
def ahead? {α : Type} (r : Reader α) : Reader (Option α) := do
  let start ← get
  let found ← possibly r
  set start
  return found

def isAhead {α : Type} (r : Reader α) : Reader Bool := return (← ahead? r).isSome

def many {α : Type} (r : Reader α) : Nat → Reader (List α)
  | 0 => return []
  | n + 1 => do
    match ← possibly r with
    | some a => return a :: (← many r n)
    | none => return []

def searching (m : Mode) (r : Reader Unit) : Reader Unit := do
  if m.searching then let _ ← ahead? r

def keywords : List String :=
  ["and", "as", "assert", "async", "await", "break", "class", "continue", "def", "del", "elif",
    "else", "except", "finally", "for", "from", "global", "if", "import", "in", "is", "lambda",
    "nonlocal", "not", "or", "pass", "raise", "return", "try", "while", "with", "yield"]

def constants : List String := ["True", "False", "None"]

/-- Names that start statements in some places. -/
def softKeywords : List String := ["_", "case", "match"]

def isName : Token → Bool
  | .name s => !keywords.contains s && !constants.contains s
  | _ => false

def name (m : Mode) : Reader String := do
  match ← next? m with
  | some (.name s) => if isName (.name s) then do drop; return s else failure
  | _ => failure

def textPart (m : Mode) : Reader (String × List Char) := do
  match ← next? m with
  | some (.text letters inside) => do
    drop
    return (letters, inside)
  | _ => failure

/-- Parts of a text are all of bytes or none is. -/
def checkParts (bytes : Bool) : List (String × List Char) → Except Fault Unit
  | [] => .ok ()
  | (letters, inside) :: rest => do
    checkText letters inside
    if bytes != (TextKind.ofLetters letters = .bytes) then throw .mixedTexts
    checkParts bytes rest

/-- Texts side by side are one. -/
def texts (m : Mode) (n : Nat) : Reader Expression := do
  match ← many (textPart m) n with
  | [] => failure
  | first :: rest =>
    let kinds := (first :: rest).map fun p => TextKind.ofLetters p.1
    match checkParts (kinds.head? = some .bytes) (first :: rest) with
    | .error f => fault f
    | .ok () => return if kinds.contains .template then .template else .text

end Reader
end DependencyAudit.Console.Handler
