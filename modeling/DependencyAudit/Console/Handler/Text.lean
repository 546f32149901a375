import DependencyAudit.Console.Handler.Token

/-!
Texts between quotes: the letters before them say whether backslashes are plain and
whether they hold bytes. An escape that is cut short is a fault, at the place where it
stands when every character beyond the plain ones is written as an escape itself.
-/

namespace DependencyAudit.Console.Handler

inductive TextKind
  | plain
  | bytes
  | template
deriving DecidableEq, Repr

def TextKind.ofLetters (letters : String) : TextKind :=
  if letters.contains 'b' then .bytes else if letters.contains 'f' then .template else .plain

def isPlain (c : Char) : Bool := c.toNat < 0x80

/-- How many characters one is written with. -/
def writtenLength (c : Char) : Nat := if isPlain c then 1 else 10

/-- How many digits an escape asks for. -/
def escapeDigits? (mark : Char) : Option Nat :=
  if mark = 'x' then some 2 else if mark = 'u' then some 4 else if mark = 'U' then some 8 else none

/-- The fault of an escape at a place, by its mark and what stands behind it. -/
def escapeFault? (place : Nat) (mark : Char) (s : List Char) : Option Fault :=
  match escapeDigits? mark with
  | some digits =>
    let found := (s.take digits).takeWhile fun c => (Reading.hexValue? c).isSome
    if found.length < digits then some (.escape (.cut mark) place (place + 1 + found.length))
    else if (Reading.hexNumber? found).all (· ≤ 0x10FFFF) then none
    else some (.escape .tooLarge place (place + 1 + digits))
  | none =>
    match mark, s with
    | 'N', '\x7b' :: r =>
      let name := r.takeWhile (· ≠ '\x7d')
      if name.isEmpty || name.length = r.length then
        some (.escape .named place (place + 2 + (name.map writtenLength).foldl (· + ·) 0))
      else none
    | 'N', _ => some (.escape .named place (place + 1))
    | _, _ => none

def checkEscapes (place : Nat) : List Char → Except Fault Unit
  | [] => .ok ()
  | '\\' :: c :: s =>
    match escapeFault? place c s with
    | some f => .error f
    | none => checkEscapes (place + (if isPlain c then 2 else 16)) s
  | c :: s => checkEscapes (place + writtenLength c) s

def checkByteEscapes (place : Nat) : List Char → Except Fault Unit
  | [] => .ok ()
  | '\\' :: c :: s =>
    if c = 'x' && ((s.take 2).takeWhile fun d => (Reading.hexValue? d).isSome).length < 2 then
      .error (.byteEscape place)
    else checkByteEscapes (place + 2) s
  | _ :: s => checkByteEscapes (place + 1) s

def checkText (letters : String) (inside : List Char) : Except Fault Unit :=
  let raw := letters.contains 'r'
  match TextKind.ofLetters letters with
  | .bytes =>
    if !inside.all isPlain then .error .byteCharacter
    else if raw then .ok ()
    else checkByteEscapes 0 inside
  | .template => .ok ()
  | .plain => if raw then .ok () else checkEscapes 0 inside

end DependencyAudit.Console.Handler
