import DependencyAudit.Console.Emoji
import DependencyAudit.Files.Path
import DependencyAudit.Text.Scan
import DependencyAudit.Text.Search

/-!
What a run finds around it: variables, the working directory, the home
directories of users, and the emoji that the console knows. Paths in settings may
name variables and homes.
-/

namespace DependencyAudit

structure Environment where
  /-- Variables with their values; of two of one name the first counts. -/
  bindings : List (String × String) := []
  directory : List String
  /-- Homes by the names of the users; under the empty name stands that of the run's own user. -/
  homes : List (String × String) := []
  emoji : Console.Emoji := .empty

namespace Environment

def get? (env : Environment) (name : String) : Option String :=
  (env.bindings.find? fun v => v.1 == name).map (·.2)

/-- A variable that is empty counts as not set. -/
def given? (env : Environment) (name : String) : Option String :=
  (env.get? name).filter (· ≠ "")

def isVariableChar (c : Char) : Bool := c.isAlphanum || c == '_'

/-- A variable's name behind a dollar sign, bare or in braces, and how many
characters it takes. -/
def namedVariable? : List Char → Option (List Char × Nat)
  | '\x7b' :: s =>
    let name := s.takeWhile (· ≠ '\x7d')
    if name.length < s.length then some (name, name.length + 2) else none
  | s => (Text.run? isVariableChar s).map fun (name, _) => (name, name.length)

/-- The text past `skip` characters with the values of its variables in place.
What a value holds is not looked at again, and an unknown variable stays. -/
def expandFrom (env : Environment) : Nat → List Char → List Char
  | _, [] => []
  | skip + 1, _ :: s => expandFrom env skip s
  | 0, c :: s =>
    if c = '$' then
      match namedVariable? s with
      | some (name, n) =>
        match env.get? (String.ofList name) with
        | some value => value.toList ++ expandFrom env n s
        | none => c :: s.take n ++ expandFrom env n s
      | none => c :: expandFrom env 0 s
    else c :: expandFrom env 0 s

def mentioned : List Char → List String
  | [] => []
  | c :: s =>
    match if c = '$' then namedVariable? s else none with
    | some (name, _) => String.ofList name :: mentioned s
    | none => mentioned s

def expandVariables (env : Environment) (s : String) : String :=
  String.ofList (expandFrom env 0 s.toList)

end Environment

inductive PathFault
  | noHome
  | nullCharacter
deriving DecidableEq, Repr

def PathFault.message : PathFault → String
  | .noHome => "Could not determine home directory."
  | .nullCharacter => "embedded null byte"

namespace Environment

def dropSlashes (s : List Char) : List Char := (s.reverse.dropWhile (· = '/')).reverse

/-- The home of a user, or the run's own under the empty name, which a variable comes before. -/
def homeOf? (env : Environment) (user : String) : Option String :=
  let known? := (env.homes.find? (·.1 == user)).map (·.2)
  let home? := if user = "" then (env.get? "HOME").or known? else known?
  home?.bind fun home =>
    let directory := String.ofList (dropSlashes home.toList)
    let directory := if directory = "" then "/" else directory
    if directory.toList.head? = some '~' then none else some directory

def expandHome (env : Environment) (p : Path) : Except PathFault Path :=
  match p.root, p.parts with
  | "", first :: rest =>
    match first.toList with
    | '~' :: user =>
      if user.contains '\x00' then .error .nullCharacter
      else match env.homeOf? (String.ofList user) with
      | some home =>
        let h := Path.ofString home
        .ok ⟨h.root, h.parts ++ rest⟩
      | none => .error .noHome
    | _ => .ok p
  | _, _ => .ok p

/-- One part further: a double dot goes up, at the top it stays. -/
def descend (place : List String) (part : String) : List String :=
  if part = ".." then place.dropLast else place ++ [part]

def resolve (env : Environment) (p : Path) : Except PathFault Path :=
  if p.hasNull then .error .nullCharacter
  else
    let start := if p.isAbsolute then [] else env.directory
    .ok ⟨"/", p.parts.foldl descend start⟩

def locate (env : Environment) (p : Path) : Except PathFault Path := do
  env.resolve (← env.expandHome p)

def expandPath (env : Environment) (s : String) : Except PathFault Path :=
  env.locate (Path.ofString (env.expandVariables s))

end Environment
end DependencyAudit
