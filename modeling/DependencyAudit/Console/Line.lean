import DependencyAudit.Text.Blank
import DependencyAudit.Text.Lines
import DependencyAudit.Text.Width

/-!
Text as the console shows it: characters that would move the cursor back are
left out, and a tab goes to the next multiple of eight columns. A line that is
wider than its place is wrapped between words. A word that is wider than the
place alone is folded, or it is cut and ends with an ellipsis.
-/

namespace DependencyAudit.Console

/-- Bell, backspace, vertical tab, form feed and carriage return. -/
def movesBack (c : Char) : Bool := [0x07, 0x08, 0x0B, 0x0C, 0x0D].contains c.toNat

def visible (s : List Char) : List Char := s.filter fun c => !movesBack c

def tabSize : Nat := 8

/-- The parts of a line between its tabs, from a column on, with spaces for each
tab. The part behind the last tab stays as it is. -/
def expandTabsFrom (column : Nat) : List (List Char) → List Char
  | [] => []
  | [part] => part
  | part :: rest =>
    let spaced := part ++ [' ']
    let there := column + Text.width spaced
    let fill := (tabSize - there % tabSize) % tabSize
    spaced ++ List.replicate fill ' ' ++ expandTabsFrom (there + fill) rest

def expandTabs (line : List Char) : List Char :=
  expandTabsFrom 0 (Text.splitAtEach '\t' line)

def spaces (n : Nat) : List Char := List.replicate n ' '

/-- What becomes of a word that is wider than its place. -/
inductive Overflow
  | fold
  | ellipsis
deriving DecidableEq, Repr

def words (s : List Char) : List (List Char) :=
  let front := s.takeWhile Text.isBlank
  match Text.trimLeft s with
  | [] => []
  | c :: r => wordsFrom (c :: front.reverse) false r
where
  /-- The rest of the words, behind a word so far, last character first, and
  whether white space already follows it. -/
  wordsFrom (word : List Char) (spaced : Bool) : List Char → List (List Char)
    | [] => [word.reverse]
    | c :: s =>
      if Text.isBlank c then wordsFrom (c :: word) true s
      else if spaced then word.reverse :: wordsFrom [c] false s
      else wordsFrom (c :: word) false s

/-- Clusters at the front of the first piece. -/
def ontoPiece (front : List Char) : List (List Char) → List (List Char)
  | [] => [front]
  | piece :: rest => (front ++ piece) :: rest

def chop (width used : Nat) : List Text.Cluster → List (List Char)
  | [] => [[]]
  | k :: rest =>
    if width < used + k.columns then [] :: ontoPiece k.chars (chop width k.columns rest)
    else ontoPiece k.chars (chop width (used + k.columns) rest)

/-- Where the pieces of a word that starts at a place start themselves. -/
def pieceStarts (start : Nat) : List (List Char) → List Nat
  | [] => []
  | piece :: rest => start :: pieceStarts (start + piece.length) rest

def Overflow.pieces (o : Overflow) (width : Nat) (word : List Char) : List (List Char) :=
  match o with
  | .fold => chop width 0 (Text.clusters word)
  | .ellipsis => [word]

/-- Where lines end, from a word at `start` on, with `used` columns taken before it. -/
def breaksFrom (o : Overflow) (width used start : Nat) : List (List Char) → List Nat
  | [] => []
  | word :: rest =>
    let need := Text.width (Text.trimRight word)
    let next := start + word.length
    if used + need ≤ width then breaksFrom o width (used + Text.width word) next rest
    else if width < need then
      let pieces := o.pieces width word
      (pieceStarts start pieces).filter (· ≠ 0)
        ++ breaksFrom o width (Text.width (pieces.getLast?.getD [])) next rest
    else if used ≠ 0 ∧ start ≠ 0 then start :: breaksFrom o width (Text.width word) next rest
    else breaksFrom o width used next rest

/-- A text cut at places that are given in order, `start` characters from its own start. -/
def cutAt (start : Nat) (s : List Char) : List Nat → List (List Char)
  | [] => [s]
  | n :: rest => s.take (n - start) :: cutAt n (s.drop (n - start)) rest

/-- White space at the end goes as far as there are more characters than columns. -/
def dropExcess (width : Nat) (s : List Char) : List Char :=
  s.take (max width (Text.trimRight s).length)

/-- The clusters that fit a number of columns; half of a wide one is a space. -/
def fitting (left : Nat) : List Text.Cluster → List Char
  | [] => []
  | k :: rest =>
    if left = 0 then []
    else if k.columns ≤ left then k.chars ++ fitting (left - k.columns) rest
    else [' ']

def Overflow.cut (o : Overflow) (width : Nat) (s : List Char) : List Char :=
  if Text.width s ≤ width then s
  else
    match o with
    | .fold => fitting width (Text.clusters s)
    | .ellipsis => fitting (width - 1) (Text.clusters s) ++ ['…']

/-- The lines that a line without line ends is shown in, none wider than its place. -/
def Overflow.wrap (o : Overflow) (width : Nat) (line : List Char) : List (List Char) :=
  let line := expandTabs line
  (cutAt 0 line (breaksFrom o width 0 0 (words line))).map fun piece =>
    o.cut width (dropExcess width piece)

def Overflow.lines (o : Overflow) (width : Nat) (s : List Char) : List (List Char) :=
  (Text.splitAtEach '\n' s).flatMap (o.wrap width)

/-- A line in the middle of a width; of an odd number of spaces the last is behind it. -/
def centred (width : Nat) (line : List Char) : List Char :=
  let line := Text.trimRight line
  let left := (width - Text.width line) / 2
  spaces left ++ line ++ spaces (width - Text.width line - left)

/-- Columns of the console. -/
def consoleWidth : Nat := 10000

def shown (s : String) : String :=
  "\n".intercalate ((Overflow.fold.lines consoleWidth (visible s.toList)).map String.ofList) ++ "\n"

def isSequenceChar (c : Char) : Bool := c = ';' || c = '?' || ('0' ≤ c && c ≤ '9')

/-- How many characters of a colour or cursor sequence follow the escape character. -/
def sequenceLength? (s : List Char) : Option Nat :=
  match s with
  | '[' :: r =>
    let inside := r.takeWhile isSequenceChar
    match r.drop inside.length with
    | c :: _ => if c.isAlpha then some (inside.length + 2) else none
    | [] => none
  | _ => none

/-- The text past `skip` characters without its colour and cursor sequences. -/
def dropSequencesFrom : Nat → List Char → List Char
  | _, [] => []
  | skip + 1, _ :: s => dropSequencesFrom skip s
  | 0, c :: s =>
    match if c = '\x1b' then sequenceLength? s else none with
    | some n => dropSequencesFrom n s
    | none => c :: dropSequencesFrom 0 s

def echoed (s : String) : String := String.ofList (dropSequencesFrom 0 s.toList)

def echo (s : String) : String := echoed s ++ "\n"

def echoCells (cells : List String) : String := echo ("\t".intercalate cells)

end DependencyAudit.Console
