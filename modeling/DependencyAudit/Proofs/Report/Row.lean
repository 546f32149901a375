import DependencyAudit.Proofs.Number.Fixed
import DependencyAudit.Proofs.Text.Lines
import DependencyAudit.Report.Markdown

/-!
Rows of a Markdown table, read back. A row is split at its bars, but for those behind a
backslash, and the blanks around a cell do not count. A cell is found again if each bar in it
has a backslash before it and it begins and ends with something to see. Escaping sees to the
bars, and is undone by reading a backslash and a bar as a bar.
-/
namespace DependencyAudit.Markdown
open Text

section Reading

/-- The pieces of a text between its bars, but for bars behind a backslash; `escaped` says that
the text itself stands behind one. -/
def splitBars (escaped : Bool) : List Char → List (List Char)
  | [] => [[]]
  | c :: s =>
    if c = '|' ∧ escaped = false then [] :: splitBars false s
    else ontoFirst c (splitBars (c = '\\') s)

/-- A line has the given cells between its outer bars, with nothing outside of these. -/
def HasCells (line : List Char) (cells : List String) : Prop :=
  ∃ pieces, splitBars false line = [] :: pieces ++ [[]] ∧
    pieces.map (fun piece => String.ofList (trim piece)) = cells

/-- A backslash and a bar are read as a bar. -/
def unescape : List Char → List Char
  | '\\' :: '|' :: s => '|' :: unescape s
  | c :: s => c :: unescape s
  | [] => []

/-- A cell that shows a text as code. -/
def Shows (cell text : String) : Prop :=
  ∃ code, cell = "`" ++ code ++ "`" ∧ unescape code.toList = text.toList

end Reading

section Escaping

/-- Each bar of a text has a backslash before it. -/
def sealed (escaped : Bool) : List Char → Bool
  | [] => true
  | c :: s => (c ≠ '|' || escaped) && sealed (c = '\\') s

variable {escaped : Bool} {s t : List Char}

theorem sealed_of_not_mem (h : '|' ∉ s) : sealed escaped s = true := by
  induction s generalizing escaped with
  | nil => rfl
  | cons c s ih =>
      obtain ⟨other, rest⟩ := not_or.1 (mt List.mem_cons.2 h)
      simp [sealed, Ne.symm other, ih rest]

theorem sealed_append (first : sealed escaped s = true)
    (last : ∀ escaped, sealed escaped t = true) : sealed escaped (s ++ t) = true := by
  induction s generalizing escaped with
  | nil => exact last escaped
  | cons c s ih =>
      obtain ⟨bar, rest⟩ := Bool.and_eq_true_iff.1 first
      rw [List.cons_append, sealed, bar, ih rest]
      rfl

theorem sealed_escaped (s : List Char) (escaped : Bool) :
    sealed escaped (s.flatMap escapeBar) = true := by
  induction s generalizing escaped with
  | nil => rfl
  | cons c s ih =>
      rw [List.flatMap_cons, escapeBar]
      split
      case isTrue => simp [sealed, ih]
      case isFalse other => simp [sealed, other, ih]

/-- A bar that was escaped is never the first character. -/
theorem head?_escaped (s : List Char) : (s.flatMap escapeBar).head? ≠ some '|' := by
  cases s with
  | nil => exact nofun
  | cons c s =>
      rw [List.flatMap_cons, escapeBar]
      split
      case isTrue => simp
      case isFalse other => simpa using other

theorem unescape_cons {c : Char} (h : s.head? ≠ some '|') :
    unescape (c :: s) = c :: unescape s := by
  rw [unescape]
  rintro s rfl rfl
  exact h rfl

theorem unescape_escaped (s : List Char) : unescape (s.flatMap escapeBar) = s := by
  induction s with
  | nil => rfl
  | cons c s ih =>
      rw [List.flatMap_cons, escapeBar]
      split
      case isTrue bar =>
        rw [bar, List.cons_append, List.singleton_append, unescape, ih]
      case isFalse => rw [List.singleton_append, unescape_cons (head?_escaped s), ih]

theorem shows_escapeCell (text : String) : Shows ("`" ++ escapeCell text ++ "`") text :=
  ⟨escapeCell text, rfl, by rw [escapeCell, String.toList_ofList, unescape_escaped]⟩

end Escaping

section Cells
variable {cell : String} {cells : List String} {s : List Char}

/-- A text without a line end of any kind. -/
def Unbroken (s : String) : Prop := s.toList.all (!isLineEnd ·) = true

instance : DecidablePred Unbroken := fun _ => inferInstanceAs (Decidable (_ = true))

theorem Unbroken.append {s t : String} (h : Unbroken s) (h' : Unbroken t) :
    Unbroken (s ++ t) := by
  rw [Unbroken, String.toList_append, List.all_append, h, h']
  rfl

theorem Unbroken.free {s : String} {breaks : Char → Bool} (h : Unbroken s)
    (ends : ∀ c, breaks c = true → isLineEnd c = true) : ∀ c ∈ s.toList, breaks c = false := by
  intro c hc
  have free := List.all_eq_true.1 h c hc
  rw [← Bool.not_eq_true]
  intro breaking
  simp [ends c breaking] at free

/-- A text that a row of a table gives back as a cell. -/
structure IsCell (cell : String) : Prop where
  starts : cell.toList.head?.any (!isBlank ·) = true
  ends : cell.toList.getLast?.any (!isBlank ·) = true
  bars : sealed false cell.toList = true
  whole : Unbroken cell

instance : DecidablePred IsCell := fun cell =>
  decidable_of_iff
    (cell.toList.head?.any (!isBlank ·) = true ∧ cell.toList.getLast?.any (!isBlank ·) = true ∧
      sealed false cell.toList = true ∧ Unbroken cell)
    ⟨fun ⟨starts, ends, bars, whole⟩ => ⟨starts, ends, bars, whole⟩,
      fun h => ⟨h.starts, h.ends, h.bars, h.whole⟩⟩

/-- A cell with the blanks that set it apart from the bars. -/
def padded (cell : String) : List Char := ' ' :: cell.toList ++ [' ']

theorem IsCell.trim_padded (h : IsCell cell) : String.ofList (trim (padded cell)) = cell := by
  have blank : Blank [' '] := List.forall_mem_singleton.2 (by decide)
  have nonempty : cell.toList ≠ [] := by
    intro empty
    have starts := h.starts
    rw [empty] at starts
    cases starts
  have ends {c? : Option Char} (seen : c?.any (!isBlank ·) = true) :
      ∀ c ∈ c?, isBlank c = false := by
    rintro c ⟨⟩
    simpa using seen
  have trimmed := trim_append blank blank nonempty (ends h.starts) (ends h.ends)
  rw [padded, ← List.singleton_append, trimmed, String.ofList_toList]

theorem splitBars_sealed {escaped : Bool} (h : sealed escaped s = true) (rest : List Char) :
    splitBars escaped (s ++ ' ' :: '|' :: rest) = (s ++ [' ']) :: splitBars false rest := by
  induction s generalizing escaped with
  | nil => simp [splitBars, ontoFirst]
  | cons c s ih =>
      obtain ⟨bar, further⟩ := Bool.and_eq_true_iff.1 h
      have kept : ¬ (c = '|' ∧ escaped = false) := by
        rintro ⟨rfl, rfl⟩
        cases bar
      rw [List.cons_append, splitBars, if_neg kept, ih further]
      rfl

theorem toList_row (nonempty : cells ≠ []) :
    (row cells).toList = '|' :: (cells.map fun cell => padded cell ++ ['|']).flatten := by
  have joined : ∀ cells : List String, cells ≠ [] →
      ' ' :: (" | ".intercalate cells).toList ++ [' ', '|'] =
        (cells.map fun cell => padded cell ++ ['|']).flatten := by
    intro cells nonempty
    induction cells with
    | nil => exact absurd rfl nonempty
    | cons cell cells ih =>
        cases cells with
        | nil => simp [padded]
        | cons next cells =>
            rw [List.map_cons, List.flatten_cons, ← ih (List.cons_ne_nil _ _)]
            simp [padded, String.intercalate_cons_cons]
  rw [← joined cells nonempty]
  simp [row]

theorem splitBars_cells (each : ∀ cell ∈ cells, IsCell cell) :
    splitBars false (cells.map fun cell => padded cell ++ ['|']).flatten =
      cells.map padded ++ [[]] := by
  induction cells with
  | nil => rfl
  | cons cell cells ih =>
      obtain ⟨first, rest⟩ := List.forall_mem_cons.1 each
      have bars : sealed false (' ' :: cell.toList) = true := first.bars
      have split := splitBars_sealed bars (cells.map fun cell => padded cell ++ ['|']).flatten
      rw [ih rest] at split
      simpa [padded] using split

/-- Cells that are put in a row are found again. -/
theorem hasCells_row (nonempty : cells ≠ []) (each : ∀ cell ∈ cells, IsCell cell) :
    HasCells (row cells).toList cells := by
  refine ⟨cells.map padded, ?_, ?_⟩
  · rw [toList_row nonempty, splitBars, if_pos ⟨rfl, rfl⟩, splitBars_cells each]
    rfl
  · rw [List.map_map]
    exact (List.map_congr_left fun cell member => (each cell member).trim_padded).trans
      (List.map_id' _)

/-- A line with cells begins with a bar. -/
theorem head?_of_hasCells (h : HasCells s cells) : s.head? = some '|' := by
  obtain ⟨pieces, split, -⟩ := h
  cases s with
  | nil => simp [splitBars] at split
  | cons c s =>
      by_cases bar : c = '|'
      · rw [bar]
        rfl
      · rw [splitBars, if_neg (bar ·.1)] at split
        cases behind : splitBars (c = '\\') s <;> simp [ontoFirst, behind] at split

theorem unbroken_row (nonempty : cells ≠ []) (each : ∀ cell ∈ cells, IsCell cell) :
    Unbroken (row cells) := by
  rw [Unbroken, toList_row nonempty, List.all_cons, List.all_flatten, List.all_map]
  refine Bool.and_eq_true_iff.2 ⟨by decide, List.all_eq_true.2 fun cell member => ?_⟩
  have whole : cell.toList.all (!isLineEnd ·) = true := (each cell member).whole
  simp only [Function.comp_apply, padded, List.cons_append, List.all_cons, List.all_append, whole]
  decide

end Cells

section Texts
variable {s : List Char} {text : String}

/-- A number with its unit. -/
theorem isCell_figure (h : Figure s) (unit : String)
    (ends : unit.toList.getLast?.all (!isBlank ·) = true)
    (bars : unit.toList.all (· ≠ '|') = true) (whole : Unbroken unit) :
    IsCell (String.ofList s ++ unit) := by
  obtain ⟨nonempty, figure⟩ := h
  have visible : ∀ c ∈ s, isBlank c = false := fun c hc => isBlank_of_isFigure (figure c hc)
  have bar : '|' ∉ s := fun member => absurd (figure _ member) (by decide)
  have text : (String.ofList s ++ unit).toList = s ++ unit.toList := by
    rw [String.toList_append, String.toList_ofList]
  constructor
  case starts =>
    rw [text]
    obtain ⟨c, s, rfl⟩ := List.exists_cons_of_ne_nil nonempty
    simpa using visible c List.mem_cons_self
  case ends =>
    rw [text, List.getLast?_append]
    cases last : unit.toList.getLast? with
    | some c => simpa [last] using ends
    | none =>
        obtain ⟨s, c, rfl⟩ := List.eq_nil_or_concat s |>.resolve_left nonempty
        simpa using visible c (by simp)
  case bars =>
    rw [text]
    refine sealed_of_not_mem fun member => ?_
    obtain member | member := List.mem_append.1 member
    · exact bar member
    · simpa using List.all_eq_true.1 bars _ member
  case whole =>
    have unbroken : unit.toList.all (!isLineEnd ·) = true := whole
    rw [Unbroken, text, List.all_append, unbroken, Bool.and_true, List.all_eq_true]
    intro c hc
    rw [isLineEnd_of_visible (visible c hc)]
    rfl

theorem isCell_code (whole : ∀ c ∈ text.toList, isLineEnd c = false) :
    IsCell ("`" ++ escapeCell text ++ "`") := by
  have code : ("`" ++ escapeCell text ++ "`").toList =
      '\x60' :: text.toList.flatMap escapeBar ++ ['\x60'] := by
    simp [escapeCell]
  constructor
  case starts =>
    rw [code]
    rfl
  case ends =>
    rw [code, List.getLast?_append]
    rfl
  case bars =>
    rw [code]
    have last (escaped : Bool) : sealed escaped ['\x60'] = true := by cases escaped <;> decide
    exact sealed_append (sealed_escaped text.toList false) last
  case whole =>
    have inner : (text.toList.flatMap escapeBar).all (!isLineEnd ·) = true := by
      rw [List.all_flatMap, List.all_eq_true]
      intro c hc
      rw [escapeBar]
      split
      case isTrue => decide
      case isFalse => simpa using whole c hc
    rw [Unbroken, code, List.all_append, List.all_cons, inner]
    rfl

end Texts
end DependencyAudit.Markdown
