import DependencyAudit.Document.Tree
import DependencyAudit.Number.Reading
import DependencyAudit.Text.Quoted

/-!
How values are shown in messages and in evidence. The literal form tells values
of different kinds apart; the plain form is the text itself for a text and the
literal form for containers. A value with a whole number of very many digits
has neither.
-/

namespace DependencyAudit

def escapeByte (quote : Char) (b : UInt8) : List Char :=
  let c := Char.ofNat b.toNat
  if c == quote || c == '\\' then ['\\', c]
  else if c == '\t' then ['\\', 't']
  else if c == '\n' then ['\\', 'n']
  else if c == '\r' then ['\\', 'r']
  else if 0x20 ≤ b && b < 0x7F then [c]
  else '\\' :: 'x' :: (Utf8.hexDigits 2 b.toNat).toList

def bytesLiteral (bs : List UInt8) : String :=
  let quote := Text.quoteFor (bs.map fun b => Char.ofNat b.toNat)
  String.ofList ('b' :: quote :: bs.flatMap (escapeByte quote) ++ [quote])

/-- A whole number that has too many digits to be shown. -/
structure LongInteger where
deriving DecidableEq, Repr

def LongInteger.message (_ : LongInteger) : String :=
  s!"Exceeds the limit ({Reading.digitLimit} digits) for integer string conversion; "
    ++ "use sys.set_int_max_str_digits() to increase the limit"

namespace Scalar

def isLong : Scalar → Bool
  | int n => Nat.pow 10 Reading.digitLimit ≤ n.natAbs
  | _ => false

def literal : Scalar → String
  | null => "None"
  | bool b => if b then "True" else "False"
  | int n => String.ofList (intText n)
  | float x => String.ofList (floatText .plain x)
  | text s => Text.quotedString s
  | halved s => Text.quotedString s
  | bytes bs => bytesLiteral bs
  | date d => d.literal
  | clock c => c.literal
  | moment m => m.literal

def plain : Scalar → String
  | text s => s
  | halved s => s
  | date d => d.plain
  | clock c => c.plain
  | moment m => m.plain
  | s => s.literal

def kindName : Scalar → String
  | null => "NoneType"
  | bool _ => "bool"
  | int _ => "int"
  | float _ => "float"
  | text _ => "str"
  | halved _ => "str"
  | bytes _ => "bytes"
  | date _ => "datetime.date"
  | clock _ => "datetime.time"
  | moment _ => "datetime.datetime"

end Scalar

namespace Tree

mutual

def literal : Tree → String
  | .scalar s => s.literal
  | .list items => "[" ++ ", ".intercalate (literals items) ++ "]"
  | .table fields => "\x7b" ++ ", ".intercalate (entries fields) ++ "\x7d"

def literals : List Tree → List String
  | [] => []
  | t :: rest => t.literal :: literals rest

def entries : List (String × Tree) → List String
  | [] => []
  | (k, t) :: rest => (Text.quotedString k ++ ": " ++ t.literal) :: entries rest

end

def plain : Tree → String
  | .scalar s => s.plain
  | t => t.literal

mutual

/-- Whether a whole number somewhere in a value has too many digits. -/
def isLong : Tree → Bool
  | .scalar s => s.isLong
  | .list items => anyLong items
  | .table fields => anyEntryLong fields

def anyLong : List Tree → Bool
  | [] => false
  | t :: rest => t.isLong || anyLong rest

def anyEntryLong : List (String × Tree) → Bool
  | [] => false
  | (_, t) :: rest => t.isLong || anyEntryLong rest

end

theorem anyLong_eq_false_iff {items : List Tree} :
    anyLong items = false ↔ ∀ t ∈ items, t.isLong = false := by
  induction items with
  | nil => simp [anyLong]
  | cons t items ih => rw [anyLong, Bool.or_eq_false_iff, ih, List.forall_mem_cons]

def kindName : Tree → String
  | .scalar s => s.kindName
  | .list _ => "list"
  | .table _ => "dict"

def isGiven : Tree → Bool
  | .scalar .null => false
  | .scalar (.bool b) => b
  | .scalar (.int n) => n != 0
  | .scalar (.float x) => !(x == 0)
  | .scalar (.text s) => !s.isEmpty
  | .scalar (.bytes bs) => !bs.isEmpty
  | .scalar _ => true
  | .list items => !items.isEmpty
  | .table fields => !fields.isEmpty

end Tree
end DependencyAudit
