import DependencyAudit.Text.Blank
import DependencyAudit.Text.Lowercase

/-!
Emoji in what the console prints. What stands between two colons, without white space, is the
code of an emoji: if the console knows it by that name, in whatever case it is written, it shows
the sign in place of the code. Behind the name a form of the sign may be asked for. Codes are read
from left to right, and one that is not known stays as it is. Which names there are is up to the
console.
-/

namespace DependencyAudit.Console

/-- What a console knows by name, each with its sign. No bracket stands in a name, and no colon
in a sign. -/
structure Emoji where
  signs : List (String × String)
  unbracketed : ∀ e ∈ signs, '[' ∉ e.1.toList
  uncoloned : ∀ e ∈ signs, ':' ∉ e.2.toList

namespace Emoji

def empty : Emoji := ⟨[], nofun, nofun⟩

/-- Endings of a name that ask for a form, and the character that a sign has behind it then. -/
def forms : List (List Char × Char) :=
  [("-emoji".toList, '\uFE0F'), ("-text".toList, '\uFE0E')]

def split (body : List Char) : List Char × List Char :=
  match forms.find? fun form => form.1.isSuffixOf body with
  | some (ending, mark) => (body.take (body.length - ending.length), [mark])
  | none => (body, [])

def sign? (emoji : Emoji) (body : List Char) : Option (List Char) :=
  let (name, mark) := split body
  (emoji.signs.lookup (String.ofList (Text.lower name))).map fun sign => sign.toList ++ mark

def isCodeChar (c : Char) : Bool := c ≠ ':' && !Text.isBlank c

/-- What a code at the front has between its colons, and the text behind it. -/
def code? : List Char → Option (List Char × List Char)
  | ':' :: s =>
    match s.dropWhile isCodeChar with
    | ':' :: rest => some (s.takeWhile isCodeChar, rest)
    | _ => none
  | _ => none

/-- The text past `skip` characters of the last code, with signs for the codes that are known. -/
def replacedFrom (emoji : Emoji) : Nat → List Char → List Char
  | _, [] => []
  | skip + 1, _ :: s => replacedFrom emoji skip s
  | 0, c :: s =>
    match code? (c :: s) with
    | some (body, rest) =>
      (emoji.sign? body).getD (':' :: body ++ [':'])
        ++ replacedFrom emoji (s.length - rest.length) s
    | none => c :: replacedFrom emoji 0 s

def replaced (emoji : Emoji) (s : List Char) : List Char := emoji.replacedFrom 0 s

end Emoji
end DependencyAudit.Console
