import DependencyAudit.Console.Markup
import DependencyAudit.Number.Basic

/-!
Tables on the console: a title over the table, a heavy frame around the heads
and a light one around the rows. Titles and cells are markup; a column is as
wide as its widest cell, as long as the console has room for all of them.
Otherwise the widest columns give way. Cells are wrapped to their columns, and
titles to the table.
-/

namespace DependencyAudit.Console

structure Column where
  head : String
  /-- Numbers stand on the right of their column. -/
  right : Bool
deriving DecidableEq, Repr

structure Table where
  title : String
  columns : List Column
  /-- As many cells as there are columns. -/
  rows : List (List String)
deriving DecidableEq, Repr

/-- A column with the text that each cell shows, its head first. -/
structure ShownColumn where
  right : Bool
  head : List Char
  cells : List (List Char)

namespace ShownColumn

def width (c : ShownColumn) : Nat :=
  (c.head :: c.cells).foldl (fun n s => max n (Text.width s)) 0 + 2

def cell (c : ShownColumn) (width : Nat) (s : List Char) : List (List Char) :=
  (Overflow.ellipsis.lines (width - 2) s).map fun line =>
    let line := if c.right then Text.trimRight line else line
    let fill := spaces (width - 2 - Text.width line)
    if c.right then fill ++ line else line ++ fill

end ShownColumn

/-! ## Widths -/

/-- Takes some columns from the widths that are the widest, evenly, but no more
than `most` from each; `count` of them are left. -/
def takeEvenly (widest most : Nat) (left count : Nat) : List Nat → List Nat
  | [] => []
  | w :: rest =>
    if w = widest then
      let n := min most (divToEven left count)
      (w - n) :: takeEvenly widest most (left - n) (count - 1) rest
    else w :: takeEvenly widest most left count rest

/-- Widths of no more than a number of columns in all. The widest give way down to
the next narrower ones, and then those with them. -/
def fitted (room : Nat) : Nat → List Nat → List Nat
  | 0, widths => widths
  | fuel + 1, widths =>
    let excess := addedUp widths - room
    let widest := widths.foldl max 0
    let next := (widths.filter (· ≠ widest)).foldl max 0
    if excess = 0 then widths
    else
      let most := min excess (widest - next)
      fitted room fuel (takeEvenly widest most excess (widths.count widest) widths)

def columnWidths (columns : List ShownColumn) : List Nat :=
  let room := consoleWidth - (columns.length + 1)
  fitted room (columns.length + 1) (columns.map fun c => min room c.width)

/-- Characters of a line of the frame: its ends, what it is made of, its crossings. -/
structure Frame where
  left : Char
  fill : Char
  cross : Char
  right : Char

namespace Table

def top : Frame := ⟨'┏', '━', '┳', '┓'⟩
def belowHead : Frame := ⟨'┡', '━', '╇', '┩'⟩
def bottom : Frame := ⟨'└', '─', '┴', '┘'⟩
def headLine : Char := '┃'
def rowLine : Char := '│'

def joined (left cross right : Char) : List (List Char) → List Char
  | [] => [left, right]
  | cell :: rest => left :: cell ++ rest.flatMap (fun c => cross :: c) ++ [right]

def frameLine (f : Frame) (widths : List Nat) : List Char :=
  joined f.left f.cross f.right (widths.map fun n => List.replicate n f.fill)

def padded (s : List Char) : List Char := ' ' :: s ++ [' ']

def cellLine (bar : Char) (cells : List (List Char)) : List Char :=
  joined bar bar bar (cells.map padded)

def shownColumns (emoji : Emoji) (rows : List (List String)) :
    List Column → Except MarkupFault (List ShownColumn)
  | [] => .ok []
  | c :: rest => do
    let head ← Markup.plain emoji c.head
    let cells ← (rows.map fun row => row.headD "").mapM (Markup.plain emoji)
    let others ← shownColumns emoji (rows.map List.tail) rest
    return ⟨c.right, head, cells⟩ :: others

def rowLines (bar : Char) (cells : List (ShownColumn × Nat × List Char)) : List (List Char) :=
  let shown := cells.map fun (c, width, s) => (c.cell width s, spaces (width - 2))
  let height := shown.foldl (fun n x => max n x.1.length) 0
  (List.range height).map fun i =>
    cellLine bar (shown.map fun (lines, blank) => lines[i]?.getD blank)

def rowsOf : Nat → List ShownColumn → List (List (List Char))
  | 0, _ => []
  | n + 1, columns =>
    columns.map (fun c => c.cells.headD []) ::
      rowsOf n (columns.map fun c => { c with cells := c.cells.tail })

def tableWidth (widths : List Nat) : Nat := addedUp widths + widths.length + 1

def titleLines (width : Nat) (title : List Char) : List (List Char) :=
  (Overflow.fold.lines width title).map (centred width)

def lines (emoji : Emoji) (t : Table) : Except MarkupFault (List (List Char)) := do
  let columns ← shownColumns emoji t.rows t.columns
  let title ← Markup.plain emoji t.title
  let widths := columnWidths columns
  let row (bar : Char) (cells : List (List Char)) : List (List Char) :=
    rowLines bar (columns.zip (widths.zip cells))
  return titleLines (tableWidth widths) title
    ++ [frameLine top widths]
    ++ row headLine (columns.map (·.head))
    ++ [frameLine belowHead widths]
    ++ (rowsOf t.rows.length columns).flatMap (row rowLine)
    ++ [frameLine bottom widths]

def text (emoji : Emoji) (t : Table) : Except MarkupFault String :=
  (t.lines emoji).map fun lines => String.join (lines.map fun line => String.ofList line ++ "\n")

end Table
end DependencyAudit.Console
