import DependencyAudit.Command.Audit
import DependencyAudit.Proofs.Console.Cells
import DependencyAudit.Proofs.Declaration.Provenance
import DependencyAudit.Proofs.Number.Fixed
import DependencyAudit.Proofs.Verdict.Sound

/-!
Rows of plain output. A verdict is shown as a line of eight cells and reported as an entry of
a document; from either the same row is read, but for colour and cursor sequences in the
coordinate, which the line has lost. No cell has a tab or a line end in it, as no declared
coordinate has white space in it.
-/
namespace DependencyAudit.Command
open Text

/-- What a table shows of a declaration, but for the size, which is rounded there. -/
structure Row where
  line : Nat
  coordinate : String
  kind : Kind
  category : Category
  confidence : Nat
  flagged : Bool
  recommendation : Option Recommendation
deriving DecidableEq

namespace Row

section Reading

/-- A count in the ten usual digits. -/
def count? (cell : String) : Option Nat :=
  if cell.toList ≠ [] ∧ cell.toList.all isDigit then some (natOfDigits cell.toList) else none

def flag? (cell : String) : Option Bool :=
  [("yes", true), ("no", false)].lookup cell

def recommendation? (cell : String) : Option (Option Recommendation) :=
  if cell = "-" then some none else (Recommendation.ofName? cell).map some

def ofCells? : List String → Option Row
  | [line, coordinate, kind, category, confidence, _, flagged, recommendation] => do
    return ⟨← count? line, coordinate, ← Kind.ofName? kind, ← Category.ofName? category,
      ← count? confidence, ← flag? flagged, ← recommendation? recommendation⟩
  | _ => none

/-- The row that a line shows: it has exactly eight cells, with tabs between them. -/
def ofLine? (line : List Char) : Option Row :=
  ofCells? ((splitAtEach '\t' line).map String.ofList)

def natural? : Tree → Option Nat
  | .int n => n.toNat?
  | _ => none

def recommendationOf? : Tree → Option (Option Recommendation)
  | .null => some none
  | .text name => (Recommendation.ofName? name).map some
  | _ => none

/-- The row of an entry of a document. -/
def ofTree? (t : Tree) : Option Row := do
  let line ← natural? (← t.at? ["line_number"])
  let .text coordinate ← t.at? ["coordinate"] | none
  let .text kind ← t.at? ["config_kind"] | none
  let .text category ← t.at? ["usage_category"] | none
  let confidence ← natural? (← t.at? ["confidence"])
  let .bool flagged ← t.at? ["is_flagged_for_removal"] | none
  let recommendation ← recommendationOf? (← t.at? ["recommendation"])
  return ⟨line, coordinate, ← Kind.ofName? kind, ← Category.ofName? category, confidence, flagged,
    recommendation⟩

end Reading

/-- The row as plain output leaves it. -/
def echoed (row : Row) : Row := { row with coordinate := Console.echoed row.coordinate }

theorem echoed_eq_self_iff {row : Row} :
    row.echoed = row ↔ ¬ Console.HasSequence row.coordinate.toList := by
  rw [← Console.echoed_eq_self_iff]
  exact ⟨congrArg Row.coordinate, fun same => by rw [echoed, same]⟩

end Row

section Calm
variable {s : List Char}

/-- Nothing in a text is white space or a control character of ASCII. -/
def Calm (s : List Char) : Prop := ∀ c ∈ s, ' ' < c

instance (s : List Char) : Decidable (Calm s) := decidableForallMem s _

theorem Calm.not_mem (h : Calm s) {c : Char} (low : c ≤ ' ') : c ∉ s :=
  fun member => not_lt_of_ge low (h c member)

theorem echoed_of_calm {cell : String} (h : Calm cell.toList) : Console.echoed cell = cell :=
  Console.echoed_of_no_escape (h.not_mem (by decide))

theorem map_echoed_of_calm {cells : List String} (h : ∀ cell ∈ cells, Calm cell.toList) :
    cells.map Console.echoed = cells :=
  (List.map_congr_left fun cell hcell => echoed_of_calm (h cell hcell)).trans (List.map_id' _)

theorem splitAtEach_row_of_calm {cells : List String} (nonempty : cells ≠ [])
    (h : ∀ cell ∈ cells, Calm cell.toList) :
    (splitAtEach '\t' (Console.row cells)).map String.ofList = cells := by
  rw [Console.splitAtEach_row nonempty fun cell hcell => (h cell hcell).not_mem (by decide),
    map_echoed_of_calm h]

theorem not_mem_row_of_calm {cells : List String} (h : ∀ cell ∈ cells, Calm cell.toList) :
    '\n' ∉ Console.row cells :=
  Console.not_mem_row (by decide) fun cell hcell => (h cell hcell).not_mem (by decide)

theorem calm_of_figure (h : Figure s) : Calm s := by
  intro c hc
  have figure := h.2 c hc
  rw [isFigure, Bool.or_eq_true] at figure
  obtain digit | sign := figure
  · simp only [isDigit, Bool.and_eq_true, decide_eq_true_eq] at digit
    exact lt_of_lt_of_le (by decide) digit.1
  · have low : ∀ c ∈ ['-', '.', 'n', 'a', 'i', 'f'], ' ' < c := by simp
    exact low c (List.contains_iff_mem.1 sign)

theorem calm_natText (n : Nat) : Calm (natText n) := calm_of_figure (.digits n)

end Calm

namespace Row

/-- The cells of a row behind the coordinate, with a size among them. -/
def facts (row : Row) (size : List Char) : List String :=
  [row.kind.name, row.category.name, String.ofList (natText row.confidence), String.ofList size,
    if row.flagged then "yes" else "no", (row.recommendation.map Recommendation.name).getD "-"]

def cells (row : Row) (size : List Char) : List String :=
  String.ofList (natText row.line) :: row.coordinate :: row.facts size

theorem count?_natText (n : Nat) : count? (String.ofList (natText n)) = some n := by
  have digits : (natText n).all isDigit = true :=
    List.all_eq_true.2 fun _ => isDigit_of_mem_toDigits
  rw [count?, String.toList_ofList, if_pos ⟨Nat.toDigits_ne_nil, digits⟩, natText,
    natOfDigits_toDigits]

theorem flag?_cell (b : Bool) : flag? (if b then "yes" else "no") = some b := by
  cases b <;> decide

theorem recommendation?_cell (r : Option Recommendation) :
    recommendation? ((r.map Recommendation.name).getD "-") = some r := by
  match r with
  | none => rfl
  | some r => cases r <;> decide

theorem ofCells?_cells (row : Row) (size : List Char) : ofCells? (row.cells size) = some row := by
  simp [ofCells?, cells, facts, count?_natText, Kind.ofName?_name, Category.ofName?_name,
    flag?_cell, recommendation?_cell]

variable {row : Row} {size : List Char}

theorem calm_facts (figure : Calm size) : ∀ cell ∈ row.facts size, Calm cell.toList := by
  intro cell hcell
  simp only [facts, List.mem_cons, List.not_mem_nil, or_false] at hcell
  obtain rfl | rfl | rfl | rfl | rfl | rfl := hcell
  · cases row.kind <;> decide
  · cases row.category <;> decide
  · exact String.toList_ofList ▸ calm_natText row.confidence
  · exact String.toList_ofList ▸ figure
  · cases row.flagged <;> decide
  · match row.recommendation with
    | none => decide
    | some r => cases r <;> decide

/-- All cells but the coordinate are printed as they are. -/
theorem map_echoed_cells (figure : Calm size) :
    (row.cells size).map Console.echoed = row.echoed.cells size := by
  have line : Console.echoed (String.ofList (natText row.line))
      = String.ofList (natText row.line) :=
    echoed_of_calm (String.toList_ofList ▸ calm_natText row.line)
  rw [cells, List.map_cons, List.map_cons, line, map_echoed_of_calm (calm_facts figure)]
  rfl

theorem not_mem_cells {c : Char} (visible : c ∉ row.coordinate.toList) (figure : Calm size)
    (low : c ≤ ' ') : ∀ cell ∈ row.cells size, c ∉ cell.toList := by
  refine List.forall_mem_cons.2 ⟨?_, List.forall_mem_cons.2 ⟨visible, fun cell hcell => ?_⟩⟩
  · rw [String.toList_ofList]
    exact (calm_natText row.line).not_mem low
  · exact (calm_facts figure cell hcell).not_mem low

/-- A row without white space in its coordinate is printed in one line, and read from it but
for sequences in the coordinate. -/
theorem ofLine?_row (visible : ∀ c ∈ row.coordinate.toList, isBlank c = false)
    (figure : Calm size) :
    '\n' ∉ Console.row (row.cells size) ∧
      ofLine? (Console.row (row.cells size)) = some row.echoed := by
  have free {c : Char} (blank : isBlank c = true) (low : c ≤ ' ') :
      ∀ cell ∈ row.cells size, c ∉ cell.toList :=
    not_mem_cells (fun member => nomatch (visible c member).symm.trans blank) figure low
  have nonempty : row.cells size ≠ [] := List.cons_ne_nil _ _
  refine ⟨Console.not_mem_row (by decide) (free (by decide) (by decide)), ?_⟩
  rw [ofLine?, Console.splitAtEach_row nonempty (free (by decide) (by decide)),
    map_echoed_cells figure, ofCells?_cells]

theorem recommendationOf?_ofOption (r : Option Recommendation) :
    recommendationOf? (.ofOption (fun r => .text r.name) r) = some r := by
  cases r with
  | none => rfl
  | some r => simp [Tree.ofOption, recommendationOf?, Recommendation.ofName?_name]

/-- The row of a verdict with whole figures. -/
def of (v : Verdict) : Row :=
  let percent := match v.confidence with
    | some (.int n) => n.toNat
    | _ => 0
  ⟨v.line.toNat, v.coordinate, v.declaration.kind, v.category, percent, v.flagged,
    v.recommendation⟩

end Row

/-- A size is a number with one of two units. -/
theorem exists_sizeFigure (x : Float) :
    ∃ s unit, Figure s ∧ (unit = " KB" ∨ unit = " MB") ∧
      sizeText (some (.real x)) = .ok (String.ofList s ++ unit) := by
  rw [sizeText]
  split
  case isTrue => exact ⟨_, _, .fixed 0 _, .inl rfl, rfl⟩
  case isFalse => exact ⟨_, _, .fixed 1 _, .inr rfl, rfl⟩

/-- There is something to show of a verdict in each cell. -/
structure Showable (v : Verdict) : Prop where
  line : ∃ n : Nat, v.line = n
  confidence : ∃ n : Nat, v.confidence = some (.int n)
  size : ∃ x : Float, v.size = some (.real x)
  visible : ∀ c ∈ v.coordinate.toList, isBlank c = false

theorem showable_of_mem_audit {tables : Tables} {evidence : Option (List String)}
    {lines : List String} {v : Verdict} (h : v ∈ audit tables evidence lines) : Showable v := by
  obtain ⟨d, hd, rfl⟩ := List.mem_map.1 h
  obtain ⟨percent, size, -, confidence, cost⟩ := Verdict.figures_of tables evidence d
  have same := Verdict.declaration_of tables evidence d
  refine ⟨⟨d.line.toNat, ?_⟩, ⟨percent, confidence⟩, ⟨size, cost⟩, ?_⟩
  · have first := Declaration.one_le_line hd
    rw [Verdict.line, same]
    omega
  · obtain ⟨literal, written⟩ := Declaration.exists_literal hd
    rw [Verdict.coordinate, same]
    exact written.visible

namespace Showable
variable {v : Verdict}

theorem ofTree?_toTree (h : Showable v) : Row.ofTree? v.toTree = some (.of v) := by
  obtain ⟨line, place⟩ := h.line
  obtain ⟨percent, confidence⟩ := h.confidence
  have natural (n : Nat) : Row.natural? (.int n) = some n := rfl
  have place : v.declaration.line = line := place
  have figure : Tree.ofOption Number.toTree (some (.int percent)) = .int percent := rfl
  have entry (key : String) : v.toTree.at? [key] = Fields.find? key v.entries := by
    simp [Verdict.toTree, Tree.at?]
  simp [Row.ofTree?, entry, Verdict.entries, Declaration.entries, Fields.find?, place, natural,
    confidence, figure, Kind.ofName?_name, Category.ofName?_name, Row.recommendationOf?_ofOption,
    Row.of, Verdict.line, Verdict.coordinate]

theorem exists_plainCells (h : Showable v) :
    ∃ size, Calm size ∧ Audit.plainCells v = .ok ((Row.of v).cells size) := by
  obtain ⟨line, place⟩ := h.line
  obtain ⟨percent, confidence⟩ := h.confidence
  obtain ⟨size, cost⟩ := h.size
  have amount : Audit.plainSize v = .ok (String.ofList (fixedText 1 size)) := by
    rw [Audit.plainSize, cost]
    rfl
  refine ⟨_, calm_of_figure (.fixed 1 size), ?_⟩
  rw [Audit.plainCells, amount]
  simp only [Row.of, Row.cells, place, confidence]
  rfl

end Showable
end DependencyAudit.Command
