import DependencyAudit.Console.Emoji
import DependencyAudit.Console.Handler
import DependencyAudit.Console.Line
import DependencyAudit.Console.Style

/-!
Console markup: a style in square brackets is set, a slash before it ends it, and
none of both is shown. A tag that starts with an at sign hands its parameters over
to a handler when it ends. A backslash keeps brackets as text. Brackets that start
with anything else than a small letter, a number sign, a slash or an at sign are
text too. Emoji are looked for in each text between tags.
-/

namespace DependencyAudit.Console

inductive MarkupFault
  | notOpen (tag : String) (position : Nat)
  | nothingOpen (position : Nat)
  | arguments (parameters : List Char) (f : Handler.Fault)
  | component (text : String) (f : Reading.WholeFault)
deriving DecidableEq, Repr

def MarkupFault.message : MarkupFault → String
  | .notOpen tag position =>
    s!"closing tag '{tag}' at position {position} doesn't match any open tag"
  | .nothingOpen position => s!"closing tag '[/]' at position {position} has nothing to close"
  | .arguments parameters f =>
    let all := String.ofList (Text.quoted parameters)
    let found := String.ofList (Text.quoted (Handler.arguments (Text.trim parameters)))
    if f.isOfValue then s!"error parsing {all}; {f.message}"
    else s!"error parsing {found} in {all}; {f.message}"
  | .component text .malformed =>
    s!"invalid literal for int() with base 10: " ++ Text.quotedStart text
  | .component _ (.tooLong digits) => Reading.tooLongMessage digits

namespace Markup

def startsTag (c : Char) : Bool := ('a' ≤ c && c ≤ 'z') || c = '#' || c = '/' || c = '@'

/-- What stands between brackets, if a text starts with a tag. -/
def tag? : List Char → Option (List Char)
  | '[' :: c :: s =>
    let inside := s.takeWhile fun x => x ≠ ']' && x ≠ '['
    if startsTag c && (s.drop inside.length).head? = some ']' then some (c :: inside) else none
  | _ => none

/-- A text in parts: tags and what stands between them. -/
inductive Part
  | text (s : List Char)
  | tag (inside : List Char) (position : Nat)
deriving DecidableEq, Repr

/-- A backslash before a bracket keeps the bracket and is not shown. -/
def unescaped : List Char → List Char
  | [] => []
  | '\\' :: '[' :: s => '[' :: unescaped s
  | c :: s => c :: unescaped s

/-- The plain text so far, last character first, as a part. -/
def flush (plain : List Char) : List Part :=
  if plain.isEmpty then [] else [.text (unescaped plain.reverse)]

/-- What backslashes and the tag behind them come to: two backslashes are one, and
an odd one keeps the tag as text. -/
def escapedTag (position slashes : Nat) (inside : List Char) : List Part :=
  let kept := if slashes / 2 = 0 then [] else [.text (List.replicate (slashes / 2) '\\')]
  kept ++
    [if slashes % 2 = 1 then .text ('[' :: inside ++ [']'])
      else .tag inside (position + 2 * (slashes / 2))]

/-- The parts of what stands at a position, past `skip` characters of the last
tag, behind some plain text. -/
def partsFrom (position : Nat) (plain : List Char) : Nat → List Char → List Part
  | _, [] => flush plain
  | skip + 1, _ :: s => partsFrom (position + 1) plain skip s
  | 0, c :: s =>
    let slashes := ((c :: s).takeWhile (· = '\\')).length
    match tag? ((c :: s).drop slashes) with
    | some inside =>
      flush plain ++ escapedTag position slashes inside
        ++ partsFrom (position + 1) [] (slashes + inside.length + 1) s
    | none => partsFrom (position + 1) (c :: plain) 0 s

def parts (s : List Char) : List Part := partsFrom 0 [] 0 s

/-- A tag that is open: the name of its style, and its parameters behind an equals sign. -/
structure Open where
  name : List Char
  parameters : Option (List Char)
deriving DecidableEq, Repr

def styleName (s : List Char) : Except MarkupFault (List Char) :=
  match Style.name s with
  | .ok name => .ok name
  | .error .unknown => .ok s
  | .error (.component text f) => .error (.component text f)

def split (inside : List Char) : List Char × Option (List Char) :=
  let name := inside.takeWhile (· ≠ '=')
  (name, if name.length = inside.length then none else some (inside.drop (name.length + 1)))

/-- The open tags, the last opened first, without the one that is closed. -/
def close? (name : List Char) : List Open → Option (Open × List Open)
  | [] => none
  | o :: rest =>
    if o.name = name then some (o, rest)
    else (close? name rest).map fun (found, rest) => (found, o :: rest)

/-- A tag with parameters for a handler is checked when it ends. -/
def ended (o : Open) : Except MarkupFault Unit :=
  match o.name, o.parameters with
  | '@' :: _, some (c :: s) =>
    (Handler.literal (Handler.arguments (Text.trim (c :: s)))).mapError (.arguments (c :: s))
  | _, _ => .ok ()

def afterTag (opened : List Open) (inside : List Char) (position : Nat) :
    Except MarkupFault (List Open) :=
  match split inside with
  | ('/' :: name, _) => do
    let (last, rest) ←
      if (Text.trim name).isEmpty then
        match opened with
        | [] => throw (.nothingOpen position)
        | o :: rest => pure (o, rest)
      else
        match close? (← styleName (Text.trim name)) opened with
        | some found => pure found
        | none => throw (.notOpen (String.ofList ('[' :: inside ++ [']'])) position)
    ended last
    return rest
  | (name, parameters) => do return ⟨← styleName name, parameters⟩ :: opened

/-- A tag's style is set with its parameters. That fails for a number that is none
of a colour, while any other text sets no style. -/
def checkStyle (inside : List Char) : Except MarkupFault Unit :=
  match split inside with
  | ('/' :: _, _) => .ok ()
  | (name, some parameters) => do
    let _ ← styleName ((← styleName name) ++ ' ' :: parameters)
  | (_, none) => .ok ()

/-- What stands between the tags. -/
def textsOf (opened : List Open) : List Part → Except MarkupFault (List (List Char))
  | [] => .ok []
  | .text s :: rest => (textsOf opened rest).map (s :: ·)
  | .tag inside position :: rest => do
    let texts ← textsOf (← afterTag opened inside position) rest
    checkStyle inside
    return texts

def texts (s : String) : Except MarkupFault (List (List Char)) := textsOf [] (parts s.toList)

def plain (emoji : Emoji) (s : String) : Except MarkupFault (List Char) :=
  (texts s).map fun texts => visible (texts.flatMap emoji.replaced)

end Markup

/-- A text that is no markup; emoji are looked for in it all the same. -/
def shownText (emoji : Emoji) (s : String) : String :=
  shown (String.ofList (emoji.replaced s.toList))

def shownMarkup (emoji : Emoji) (s : String) : Except MarkupFault String :=
  (Markup.plain emoji s).map fun text => shown (String.ofList text)

end DependencyAudit.Console
