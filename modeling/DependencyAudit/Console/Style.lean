import DependencyAudit.Console.Color
import DependencyAudit.Text.Blank

/-!
Styles by their definitions: attributes that are set or taken back, a colour, a
colour behind the text, and a link. Definitions of one style have one normal
form. A text that defines no style names one all the same, in any case.
-/

namespace DependencyAudit.Console

/-- In the order of the normal form. -/
def attributeNames : List String :=
  ["bold", "dim", "italic", "underline", "blink", "blink2", "reverse", "conceal", "strike",
    "underline2", "frame", "encircle", "overline"]

def shortAttributes : List (String × String) :=
  [("d", "dim"), ("b", "bold"), ("i", "italic"), ("u", "underline"), ("r", "reverse"),
    ("c", "conceal"), ("s", "strike"), ("uu", "underline2"), ("o", "overline")]

structure Style where
  /-- The last that was given first. -/
  attributes : List (String × Bool)
  color : Option (List Char)
  background : Option (List Char)
  link : Option (List Char)

namespace Style

def none : Style := ⟨[], .none, .none, .none⟩

def attribute? (word : List Char) : Option String :=
  let name := String.ofList word
  if attributeNames.contains name then some name else shortAttributes.lookup name

def words : List Char → List (List Char)
  | [] => []
  | c :: s =>
    if Text.isBlank c then words s
    else
      match s, words s with
      | d :: _, w :: rest => if Text.isBlank d then [c] :: w :: rest else (c :: w) :: rest
      | _, rest => [c] :: rest

def addWords (style : Style) : List (List Char) → Except Color.Fault Style
  | [] => .ok style
  | word :: rest =>
    let name := String.ofList (Text.lower word)
    match name, rest with
    | "on", [] => .error .unknown
    | "on", color :: rest => do
      let color ← Color.ofWord color
      addWords { style with background := some color } rest
    | "not", [] => .error .unknown
    | "not", taken :: rest =>
      match attribute? taken with
      | some a => addWords { style with attributes := (a, false) :: style.attributes } rest
      | .none => .error .unknown
    | "link", [] => .error .unknown
    | "link", link :: rest => addWords { style with link := some link } rest
    | _, rest =>
      match attribute? name.toList with
      | some a => addWords { style with attributes := (a, true) :: style.attributes } rest
      | .none => do
        let color ← Color.ofWord word
        addWords { style with color := some color } rest

def ofDefinition (s : List Char) : Except Color.Fault Style :=
  if Text.trim s = "none".toList then .ok none else none.addWords (words s)

def attributeWords (style : Style) (name : String) : List (List Char) :=
  match style.attributes.lookup name with
  | some true => [name.toList]
  | some false => ["not".toList, name.toList]
  | .none => []

def normalForm (style : Style) : List Char :=
  let words := attributeNames.flatMap style.attributeWords ++ style.color.toList
    ++ (style.background.map fun c => ["on".toList, c]).getD []
    ++ (style.link.map fun l => ["link".toList, l]).getD []
  if words.isEmpty then "none".toList else (words.intersperse [' ']).flatten

def name (definition : List Char) : Except Color.Fault (List Char) :=
  match ofDefinition definition with
  | .ok style => .ok style.normalForm
  | .error .unknown => .ok (Text.lower (Text.trim definition))
  | .error f => .error f

end Style
end DependencyAudit.Console
