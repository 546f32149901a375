import DependencyAudit.Document.Literal

/-!
Writing a document as JSON. A style says how entries are set apart and whether
characters past ASCII are escaped; the values that JSON has no form for are
written as the words that its readers take for them.
-/

namespace DependencyAudit.Json

structure Style where
  /-- Spaces per level, each entry on a line of its own; none puts all on one line. -/
  indent : Option Nat
  keyEnd : List Char
  asciiOnly : Bool
deriving DecidableEq, Repr

def Style.file : Style := ⟨some 2, [':', ' '], true⟩

def Style.console : Style := ⟨some 2, [':', ' '], false⟩

def Style.compact : Style := ⟨none, [':'], true⟩

def spelling : Spelling := ⟨"NaN", "Infinity"⟩

def unitEscape (n : Nat) : List Char := '\\' :: 'u' :: (Utf8.hexDigits 4 n).toList

/-- Code points past the first plane are escaped as two surrogates. -/
def unicodeEscape (c : Char) : List Char :=
  let n := c.toNat
  if n < 0x10000 then unitEscape n
  else unitEscape (0xD800 + (n - 0x10000) / 0x400) ++ unitEscape (0xDC00 + (n - 0x10000) % 0x400)

def escape (asciiOnly : Bool) (c : Char) : List Char :=
  if c == '"' || c == '\\' then ['\\', c]
  else if c == '\n' then ['\\', 'n']
  else if c == '\r' then ['\\', 'r']
  else if c == '\t' then ['\\', 't']
  else if c == '\x08' then ['\\', 'b']
  else if c == '\x0c' then ['\\', 'f']
  else if c.toNat < 0x20 || (asciiOnly && 0x7F ≤ c.toNat) then unicodeEscape c
  else [c]

def stringText (asciiOnly : Bool) (s : String) : List Char :=
  '"' :: s.toList.flatMap (escape asciiOnly) ++ ['"']

def scalarText (asciiOnly : Bool) : Scalar → List Char
  | .null => "null".toList
  | .bool true => "true".toList
  | .bool false => "false".toList
  | .int n => intText n
  | .float x => floatText spelling x
  | .text s => stringText asciiOnly s
  | s => stringText asciiOnly s.plain

namespace Style

def lineStart (style : Style) (depth : Nat) : List Char :=
  match style.indent with
  | none => []
  | some n => '\n' :: List.replicate (n * depth) ' '

/-- Entries between brackets, each at the start of a line one level deeper. -/
def enclose (style : Style) (depth : Nat) (opening closing : Char) : List (List Char) → List Char
  | [] => [opening, closing]
  | entry :: rest =>
    let start := style.lineStart (depth + 1)
    opening :: start ++ entry ++ rest.flatMap (fun e => ',' :: start ++ e)
      ++ style.lineStart depth ++ [closing]

mutual

def render (style : Style) (depth : Nat) : Tree → List Char
  | .scalar s => scalarText style.asciiOnly s
  | .list items => style.enclose depth '[' ']' (style.renderItems (depth + 1) items)
  | .table fields => style.enclose depth '\x7b' '\x7d' (style.renderFields (depth + 1) fields)

def renderItems (style : Style) (depth : Nat) : List Tree → List (List Char)
  | [] => []
  | t :: rest => style.render depth t :: style.renderItems depth rest

def renderFields (style : Style) (depth : Nat) : List (String × Tree) → List (List Char)
  | [] => []
  | (key, t) :: rest =>
    (stringText style.asciiOnly key ++ style.keyEnd ++ style.render depth t)
      :: style.renderFields depth rest

end
end Style

def write (style : Style) (t : Tree) : String := String.ofList (style.render 0 t)

end DependencyAudit.Json
