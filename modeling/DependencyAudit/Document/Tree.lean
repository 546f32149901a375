import DependencyAudit.Document.Calendar

/-!
Documents as trees. A table keeps its entries in the order in which their keys
were first written; readers give each key of a table once.
-/

namespace DependencyAudit

inductive Scalar
  | null
  | bool (b : Bool)
  | int (n : Int)
  | float (x : Float)
  | text (s : String)
  /-- A text with half of a surrogate pair in it, which is no character; U+FFFD stands for it. -/
  | halved (s : String)
  | bytes (bs : List UInt8)
  | date (d : Date)
  | clock (c : Clock)
  | moment (m : Moment)
deriving DecidableEq

inductive Tree
  | scalar (s : Scalar)
  | list (items : List Tree)
  | table (fields : List (String × Tree))

abbrev Fields := List (String × Tree)

namespace Tree

@[match_pattern] abbrev null : Tree := .scalar .null
@[match_pattern] abbrev bool (b : Bool) : Tree := .scalar (.bool b)
@[match_pattern] abbrev int (n : Int) : Tree := .scalar (.int n)
@[match_pattern] abbrev float (x : Float) : Tree := .scalar (.float x)
@[match_pattern] abbrev text (s : String) : Tree := .scalar (.text s)

instance : Inhabited Tree := ⟨null⟩

def isTable : Tree → Bool
  | .table _ => true
  | _ => false

def nat (n : Nat) : Tree := .int n

def ofOption {α : Type} (f : α → Tree) : Option α → Tree
  | none => .null
  | some a => f a

end Tree

def Number.toTree : Number → Tree
  | .int n => .int n
  | .real x => .float x

namespace Fields

def find? (key : String) : Fields → Option Tree
  | [] => none
  | (k, v) :: rest => if k = key then some v else find? key rest

/-- An entry takes the place of the one with its key, or the last place. -/
def put (key : String) (value : Tree) : Fields → Fields
  | [] => [(key, value)]
  | (k, v) :: rest => if k = key then (key, value) :: rest else (k, v) :: put key value rest

def keys (fields : Fields) : List String := fields.map (·.1)

end Fields
end DependencyAudit
