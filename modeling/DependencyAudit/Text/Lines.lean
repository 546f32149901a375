/-!
Lines of a text. A line ends at a line feed, a carriage return, the pair of
both, or one of the separators that also end a line; the last line needs no end.
-/

namespace DependencyAudit.Text

def isLineEnd (c : Char) : Bool :=
  [0x0A, 0x0B, 0x0C, 0x0D, 0x1C, 0x1D, 0x1E, 0x85, 0x2028, 0x2029].contains c.toNat

/-- One more character at the front of the first line. -/
def ontoFirst (c : Char) : List (List Char) → List (List Char)
  | [] => [[c]]
  | line :: rest => (c :: line) :: rest

def splitLines : List Char → List (List Char)
  | [] => []
  | '\r' :: '\n' :: s => [] :: splitLines s
  | c :: s => if isLineEnd c then [] :: splitLines s else ontoFirst c (splitLines s)

/-- Files are read with one line end for all three of the usual ones. -/
def unifyNewlines : List Char → List Char
  | [] => []
  | '\r' :: '\n' :: s => '\n' :: unifyNewlines s
  | '\r' :: s => '\n' :: unifyNewlines s
  | c :: s => c :: unifyNewlines s

/-- The pieces between occurrences of a separator: one more than there are. -/
def splitAtEach (sep : Char) : List Char → List (List Char)
  | [] => [[]]
  | c :: s => if c == sep then [] :: splitAtEach sep s else ontoFirst c (splitAtEach sep s)

end DependencyAudit.Text
