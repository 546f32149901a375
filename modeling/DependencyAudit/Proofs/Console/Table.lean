import DependencyAudit.Console.Table
import DependencyAudit.Proofs.Console.Line
import DependencyAudit.Proofs.Console.Markup

/-!
Tables, row by row. If the console has room for every column, each row of a table is one line,
with the text that is shown of each cell between blanks. A text without white space stands in
such a line only if it stands in one of its cells; so the rows of a table show parts of what
stands in their cells exactly if none of these is read as markup.
-/
namespace DependencyAudit.Console
open Text

section Cells
variable {c : ShownColumn} {s : List Char} {w : Nat}

/-- A text that stays on its line, and does not end in white space. -/
structure Settled (s : List Char) : Prop where
  feed : '\n' ∉ s
  tab : '\t' ∉ s
  ends : trimRight s = s

theorem trimRight_eq_self (h : ∀ c ∈ s.getLast?, isBlank c = false) : trimRight s = s := by
  have nothing : Blank [] := List.forall_mem_nil _
  have kept := trimRight_append nothing h
  rwa [List.append_nil] at kept

theorem settled_of_visible (h : ∀ c ∈ s, isBlank c = false) : Settled s where
  feed member := absurd (h _ member) (by decide)
  tab member := absurd (h _ member) (by decide)
  ends := trimRight_eq_self fun c hc => h c (List.mem_of_getLast? hc)

/-- A text with spaces beside it, as many as the column is wider. -/
def ShownColumn.filled (c : ShownColumn) (s : List Char) : List Char :=
  if c.right then spaces (c.width - 2 - Text.width s) ++ s
  else s ++ spaces (c.width - 2 - Text.width s)

theorem cell_eq (settled : Settled s) (fits : Text.width s ≤ c.width - 2) :
    c.cell c.width s = [c.filled s] := by
  have kept : dropExcess (c.width - 2) s = s := by
    rw [dropExcess, settled.ends]
    exact List.take_of_length_le (le_max_right _ _)
  have lines : Overflow.ellipsis.lines (c.width - 2) s = [s] := by
    rw [Overflow.lines, splitAtEach_of_not_mem settled.feed, List.flatMap_singleton]
    exact wrap_of_dropExcess settled.tab fits kept
  rw [ShownColumn.cell, lines, List.map_singleton, ShownColumn.filled, settled.ends]
  split <;> rfl

theorem le_foldl_max (n : Nat) (cells : List (List Char)) :
    n ≤ cells.foldl (fun n s => max n (Text.width s)) n ∧
      ∀ s ∈ cells, Text.width s ≤ cells.foldl (fun n s => max n (Text.width s)) n := by
  induction cells generalizing n with
  | nil => exact ⟨le_rfl, nofun⟩
  | cons cell cells ih =>
      obtain ⟨start, each⟩ := ih (max n (Text.width cell))
      exact ⟨(le_max_left _ _).trans start,
        List.forall_mem_cons.2 ⟨(le_max_right _ _).trans start, each⟩⟩

theorem width_le_of_mem (h : s ∈ c.cells) : Text.width s ≤ c.width - 2 :=
  (le_foldl_max 0 (c.head :: c.cells)).2 s (List.mem_cons_of_mem _ h)

end Cells

section Widths

theorem le_addedUp {n : Nat} {widths : List Nat} (h : n ∈ widths) : n ≤ addedUp widths := by
  induction widths with
  | nil => cases h
  | cons first widths ih =>
      rw [addedUp]
      obtain rfl | h := List.mem_cons.1 h
      · exact Nat.le_add_right _ _
      · exact (ih h).trans (Nat.le_add_left _ _)

/-- With room for all columns each is as wide as its widest text. -/
theorem columnWidths_eq {columns : List ShownColumn}
    (fits : Table.tableWidth (columns.map (·.width)) ≤ consoleWidth) :
    columnWidths columns = columns.map (·.width) := by
  rw [Table.tableWidth, List.length_map] at fits
  have each : (columns.map fun c => min (consoleWidth - (columns.length + 1)) c.width) =
      columns.map (·.width) := by
    refine List.map_congr_left fun c member => min_eq_right ?_
    have most := le_addedUp (List.mem_map_of_mem (f := (·.width)) member)
    omega
  have fits : addedUp (columns.map (·.width)) - (consoleWidth - (columns.length + 1)) = 0 := by
    omega
  simp only [columnWidths, each, fitted, fits, if_pos]

end Widths

namespace Table

/-- What the cells of a row show. -/
abbrev Shown (emoji : Emoji) : List String → List (List Char) → Prop :=
  List.Forall₂ fun cell text => Markup.plain emoji cell = .ok text

section Columns
variable {emoji : Emoji} {cell : String} {cells row : List String} {rows : List (List String)}
  {heads : List Column} {columns : List ShownColumn}

/-- The first texts of the columns are those of the first row, and the others those of the
other rows. -/
theorem shownColumns_cons (shaped : row.length = heads.length)
    (h : shownColumns emoji (row :: rows) heads = .ok columns) :
    Shown emoji row (columns.map fun c => c.cells.headD []) ∧
      shownColumns emoji rows heads =
        .ok (columns.map fun c => { c with cells := c.cells.tail }) := by
  induction heads generalizing row rows columns with
  | nil =>
      obtain rfl := List.length_eq_zero_iff.1 shaped
      cases h
      exact ⟨.nil, rfl⟩
  | cons head heads ih =>
      obtain ⟨cell, cells, rfl⟩ := List.exists_cons_of_length_eq_add_one shaped
      obtain ⟨title, headed, h⟩ := bind_eq_ok_iff.1 h
      obtain ⟨texts, read, h⟩ := bind_eq_ok_iff.1 h
      obtain ⟨others, rest, h⟩ := bind_eq_ok_iff.1 h
      cases h
      obtain ⟨text, more, first, further, rfl⟩ :=
        List.forall₂_cons_left_iff.1 (mapM_eq_ok_iff.1 read)
      obtain ⟨shown, below⟩ := ih (Nat.succ_inj.1 shaped) rest
      exact ⟨.cons first shown, bind_eq_ok_iff.2 ⟨title, headed, bind_eq_ok_iff.2
        ⟨more, mapM_eq_ok_iff.2 further, bind_eq_ok_iff.2 ⟨_, below, rfl⟩⟩⟩⟩

theorem shown_rowsOf (shaped : ∀ row ∈ rows, row.length = heads.length)
    (h : shownColumns emoji rows heads = .ok columns) :
    List.Forall₂ (Shown emoji) rows (rowsOf rows.length columns) := by
  induction rows generalizing columns with
  | nil => exact .nil
  | cons row rows ih =>
      obtain ⟨first, others⟩ := List.forall_mem_cons.1 shaped
      obtain ⟨shown, below⟩ := shownColumns_cons first h
      exact .cons shown (ih others below)

theorem exists_shownColumns (headed : ∀ c ∈ heads, Markup.Accepted c.head)
    (shaped : ∀ row ∈ rows, row.length = heads.length)
    (each : ∀ row ∈ rows, ∀ cell ∈ row, Markup.Accepted cell) :
    ∃ columns, shownColumns emoji rows heads = .ok columns := by
  induction heads generalizing rows with
  | nil => exact ⟨[], rfl⟩
  | cons head heads ih =>
      obtain ⟨accepted, others⟩ := List.forall_mem_cons.1 headed
      obtain ⟨title, first⟩ := accepted.exists_plain emoji
      have read : ∀ row ∈ rows, ∃ cell rest, row = cell :: rest ∧ rest.length = heads.length ∧
          ∀ cell ∈ row, Markup.Accepted cell := by
        intro row member
        obtain ⟨cell, rest, rfl⟩ := List.exists_cons_of_length_eq_add_one (shaped row member)
        exact ⟨cell, rest, rfl, Nat.succ_inj.1 (shaped _ member), each _ member⟩
      have cells : ∀ cell ∈ rows.map fun row => row.headD "",
          ∃ text, Markup.plain emoji cell = .ok text := by
        refine List.forall_mem_map.2 fun row member => ?_
        obtain ⟨cell, rest, rfl, -, whole⟩ := read row member
        exact (whole cell List.mem_cons_self).exists_plain emoji
      obtain ⟨texts, column⟩ := exists_mapM_iff.2 cells
      have behind : ∀ row ∈ rows.map List.tail, row.length = heads.length ∧
          ∀ cell ∈ row, Markup.Accepted cell := by
        refine List.forall_mem_map.2 fun row member => ?_
        obtain ⟨cell, rest, rfl, same, whole⟩ := read row member
        exact ⟨same, (List.forall_mem_cons.1 whole).2⟩
      obtain ⟨columns, rest⟩ :=
        ih others (fun row member => (behind row member).1) fun row member => (behind row member).2
      exact ⟨_, bind_eq_ok_iff.2 ⟨title, first, bind_eq_ok_iff.2 ⟨texts, column,
        bind_eq_ok_iff.2 ⟨columns, rest, rfl⟩⟩⟩⟩

end Columns

section Rows
variable {columns columns' : List ShownColumn} {texts : List (List Char)} {bar : Char}

/-- The texts of a row are among those of their columns. -/
theorem within_rowsOf {n : Nat}
    (within : List.Forall₂ (fun c c' : ShownColumn => c'.cells ⊆ c.cells) columns columns') :
    ∀ texts ∈ rowsOf n columns',
      List.Forall₂ (fun c s => s ∈ c.cells ∨ s = []) columns texts := by
  induction n generalizing columns' with
  | zero => exact nofun
  | succ n ih =>
      refine List.forall_mem_cons.2 ⟨?_, ih ?_⟩
      · rw [List.forall₂_map_right_iff]
        refine within.imp fun c c' inside => ?_
        cases cells : c'.cells with
        | nil => exact .inr rfl
        | cons s others =>
            refine .inl (inside ?_)
            rw [cells]
            exact List.mem_cons_self
      · rw [List.forall₂_map_right_iff]
        exact within.imp fun c c' inside => List.Subset.trans (List.tail_subset _) inside

theorem fits_rowsOf (n : Nat) : ∀ texts ∈ rowsOf n columns,
    List.Forall₂ (fun c s => Text.width s ≤ c.width - 2) columns texts := by
  intro texts member
  have within := within_rowsOf (List.forall₂_same.2 fun c _ => List.Subset.refl c.cells) texts
    member
  refine within.imp fun c s inside => ?_
  obtain inside | rfl := inside
  · exact width_le_of_mem inside
  · exact Nat.zero_le _

/-- The line of a row whose texts stay on their lines. -/
def line (columns : List ShownColumn) (texts : List (List Char)) : List Char :=
  cellLine rowLine ((columns.zip texts).map fun x => x.1.filled x.2)

theorem rowLines_eq (nonempty : columns ≠ [])
    (settled : List.Forall₂ (fun c s => Settled s ∧ Text.width s ≤ c.width - 2) columns texts) :
    rowLines rowLine (columns.zip ((columns.map (·.width)).zip texts)) = [line columns texts] := by
  have cells : (columns.zip ((columns.map (·.width)).zip texts)).map
      (fun x => (x.1.cell x.2.1 x.2.2, spaces (x.2.1 - 2))) =
        (columns.zip texts).map fun x => ([x.1.filled x.2], spaces (x.1.width - 2)) := by
    clear nonempty
    induction settled with
    | nil => rfl
    | cons first _ ih =>
        rw [List.map_cons, List.zip_cons_cons, List.zip_cons_cons, List.map_cons, ih,
          List.zip_cons_cons, List.map_cons, cell_eq first.1 first.2]
  have height : ∀ pairs : List (ShownColumn × List Char), (pairs.map fun x =>
      ([x.1.filled x.2], spaces (x.1.width - 2))).foldl (fun n x => max n x.1.length) 1 = 1 := by
    intro pairs
    induction pairs with
    | nil => rfl
    | cons pair pairs ih => exact ih
  simp only [rowLines, cells, line]
  clear cells
  cases settled with
  | nil => exact absurd rfl nonempty
  | cons first others =>
      simp only [List.zip_cons_cons, List.map_cons, List.foldl_cons, List.length_singleton,
        Nat.zero_max, height, List.range_one, List.map_nil, List.map_map, Function.comp_def,
        List.getElem?_cons_zero, Option.getD_some]

end Rows

/-- The rows of a table as it is printed: the lines below its head, up to its end. -/
def tableRows (text : List Char) : List (List Char) :=
  ((splitAtEach '\n' text).reverse.takeWhile fun line =>
    line.head? ≠ some belowHead.left).reverse.takeWhile fun line => line.head? = some rowLine

/-- Each row of a table as it is printed has its parts in it. -/
def RowsShow (parts : List (List String)) (text : String) : Prop :=
  List.Forall₂ (fun ps row => ∀ p ∈ ps, p.toList <:+: row) parts (tableRows text.toList)

section Text
variable {emoji : Emoji} {t : Table} {columns : List ShownColumn} {texts : List (List Char)}
  {bar : Char}
  {cells : List (List Char)}

theorem cellLine_eq (nonempty : cells ≠ []) :
    cellLine bar cells = (cells.flatMap fun cell => bar :: padded cell) ++ [bar] := by
  cases cells with
  | nil => exact absurd rfl nonempty
  | cons cell cells => simp [cellLine, joined, List.flatMap_map]

theorem head?_line (columns : List ShownColumn) (texts : List (List Char)) :
    (line columns texts).head? = some rowLine := by
  rw [line]
  cases (columns.zip texts).map fun x => x.1.filled x.2 with
  | nil => rfl
  | cons cell cells => rfl

theorem filled_eq (c : ShownColumn) (s : List Char) :
    ∃ before after, c.filled s = before ++ s ++ after ∧
      ∀ x ∈ before ++ after, x = ' ' := by
  rw [ShownColumn.filled]
  split
  · exact ⟨spaces (c.width - 2 - Text.width s), [], by simp, by simp [spaces]⟩
  · exact ⟨[], spaces (c.width - 2 - Text.width s), by simp, by simp [spaces]⟩

theorem not_mem_line (nonempty : columns.zip texts ≠ [])
    (free : ∀ s ∈ texts, '\n' ∉ s) : '\n' ∉ line columns texts := by
  rw [line, cellLine_eq (by simpa using nonempty), List.mem_append, List.mem_flatMap]
  rintro (⟨_, member, inside⟩ | inside)
  · obtain ⟨⟨c, s⟩, pair, rfl⟩ := List.mem_map.1 member
    obtain ⟨before, after, filled, blank⟩ := filled_eq c s
    have here := free s (List.of_mem_zip pair).2
    have beside : '\n' ∉ before ++ after := fun member => absurd (blank _ member) (by decide)
    simp only [padded, filled] at inside
    simp_all [rowLine]
  · exact absurd inside (by decide)

theorem toList_text {lines : List (List Char)} (h : t.lines emoji = .ok lines) {text : String}
    (h' : t.text emoji = .ok text) : text.toList = (lines.map (· ++ ['\n'])).flatten := by
  rw [Table.text, h] at h'
  cases h'
  simp [String.toList_join, List.flatMap_def, Function.comp_def]

/-- Behind ended lines of any kind a line stands as it is. -/
theorem exists_splitAtEach {line : List Char} (front : List (List Char)) (free : '\n' ∉ line) :
    ∃ before, splitAtEach '\n' ((front.map (· ++ ['\n'])).flatten ++ line) = before ++ [line] := by
  obtain rfl | ⟨front, last, rfl⟩ := List.eq_nil_or_concat front
  · exact ⟨[], splitAtEach_of_not_mem free⟩
  · refine ⟨splitAtEach '\n' ((front.map (· ++ ['\n'])).flatten ++ last), ?_⟩
    rw [List.concat_eq_append, List.map_append, List.flatten_append, List.map_singleton,
      List.flatten_singleton, List.append_assoc, List.append_assoc, ← List.append_assoc,
      List.singleton_append, splitAtEach_append, splitAtEach_of_not_mem free]

/-- Lines are found again from the first one that has no line feed in it. -/
theorem exists_splitAtEach_cons {below : List Char} {rest : List (List Char)}
    (front : List (List Char)) (free : ∀ line ∈ below :: rest, '\n' ∉ line) :
    ∃ before, splitAtEach '\n' ((front ++ below :: rest).map (· ++ ['\n'])).flatten =
      before ++ below :: (rest ++ [[]]) := by
  obtain ⟨first, others⟩ := List.forall_mem_cons.1 free
  obtain ⟨before, early⟩ := exists_splitAtEach front first
  have late := splitAtEach_ended others []
  rw [List.append_nil, splitAtEach_of_not_mem List.not_mem_nil] at late
  refine ⟨before, ?_⟩
  rw [List.map_append, List.flatten_append, List.map_cons, List.flatten_cons, List.append_assoc,
    List.singleton_append, ← List.append_assoc, splitAtEach_append, early, late,
    List.append_assoc, List.singleton_append]

/-- What stands behind the last line that starts below the head, and starts as a row. -/
theorem tableRows_eq {front rows : List (List Char)} {below bottom : List Char}
    (start : below.head? = some belowHead.left) (free : '\n' ∉ below)
    (body : ∀ row ∈ rows, row.head? = some rowLine ∧ '\n' ∉ row)
    (stop : bottom.head? = some Table.bottom.left) (free' : '\n' ∉ bottom) :
    tableRows ((front ++ below :: (rows ++ [bottom])).map (· ++ ['\n'])).flatten = rows := by
  have ended : ∀ line ∈ below :: (rows ++ [bottom]), '\n' ∉ line := by
    simp only [List.forall_mem_cons, List.forall_mem_append]
    exact ⟨free, fun row member => (body row member).2, free', nofun⟩
  obtain ⟨before, pieces⟩ := exists_splitAtEach_cons front ended
  rw [List.append_assoc, List.singleton_append] at pieces
  have behind : ∀ line ∈ (rows ++ [bottom, []]).reverse, line.head? ≠ some belowHead.left := by
    simp only [List.mem_reverse, List.forall_mem_append, List.forall_mem_cons]
    refine ⟨fun row member => ?_, ?_, by decide, nofun⟩
    · rw [(body row member).1]
      decide
    · rw [stop]
      decide
  rw [tableRows, pieces, List.reverse_append, List.reverse_cons, List.append_assoc,
    List.takeWhile_append_of_pos fun line member => decide_eq_true (behind line member),
    List.singleton_append, List.takeWhile_cons_of_neg (by simpa using start), List.append_nil,
    List.reverse_reverse, List.takeWhile_append_of_pos fun row member =>
      decide_eq_true (body row member).1, List.takeWhile_cons_of_neg, List.append_nil]
  rw [stop]
  decide

end Text

section Whole
variable {emoji : Emoji} {t : Table}

/-- The console has room for all columns as wide as their texts. -/
def Fits (emoji : Emoji) (t : Table) : Prop :=
  ∀ columns, shownColumns emoji t.rows t.columns = .ok columns →
    tableWidth (columns.map (·.width)) ≤ consoleWidth

instance (emoji : Emoji) (t : Table) : Decidable (t.Fits emoji) :=
  match h : shownColumns emoji t.rows t.columns with
  | .ok columns =>
    decidable_of_iff (tableWidth (columns.map (·.width)) ≤ consoleWidth)
      ⟨fun room _ same => by cases h.symm.trans same; exact room, fun fits => fits columns h⟩
  | .error _ => .isTrue fun _ same => by cases h.symm.trans same

theorem length_shownColumns {rows : List (List String)} {heads : List Column}
    {columns : List ShownColumn} (h : shownColumns emoji rows heads = .ok columns) :
    columns.length = heads.length := by
  induction heads generalizing rows columns with
  | nil =>
      cases h
      rfl
  | cons head heads ih =>
      obtain ⟨_, -, h⟩ := bind_eq_ok_iff.1 h
      obtain ⟨_, -, h⟩ := bind_eq_ok_iff.1 h
      obtain ⟨others, rest, h⟩ := bind_eq_ok_iff.1 h
      cases h
      exact congrArg (· + 1) (ih rest)

theorem exists_lines {text : String} (h : t.text emoji = .ok text) :
    ∃ columns title front, shownColumns emoji t.rows t.columns = .ok columns ∧
      Markup.plain emoji t.title = .ok title ∧
      text.toList = ((front ++ frameLine belowHead (columnWidths columns) ::
        ((rowsOf t.rows.length columns).flatMap (fun texts =>
          rowLines rowLine (columns.zip ((columnWidths columns).zip texts)))
          ++ [frameLine bottom (columnWidths columns)])).map (· ++ ['\n'])).flatten := by
  cases drawn : t.lines emoji with
  | error f =>
      rw [Table.text, drawn] at h
      cases h
  | ok lines =>
      have whole := toList_text drawn h
      obtain ⟨columns, shown, drawn⟩ := bind_eq_ok_iff.1 drawn
      obtain ⟨title, titled, drawn⟩ := bind_eq_ok_iff.1 drawn
      cases drawn
      refine ⟨columns, title, titleLines (tableWidth (columnWidths columns)) title ++
        [frameLine top (columnWidths columns)] ++ rowLines headLine
          (columns.zip ((columnWidths columns).zip (columns.map (·.head)))), shown, titled, ?_⟩
      rw [whole]
      simp only [List.append_assoc, List.cons_append, List.nil_append]

theorem not_mem_frameLine {f : Frame} (widths : List Nat)
    (free : '\n' ∉ [f.left, f.fill, f.cross, f.right]) : '\n' ∉ frameLine f widths := by
  simp only [List.mem_cons, List.not_mem_nil, or_false, not_or] at free
  obtain ⟨left, fill, cross, right⟩ := free
  cases widths with
  | nil => simp [frameLine, joined, left, right]
  | cons n widths => simp [frameLine, joined, left, right, cross, fill]

theorem head?_frameLine (f : Frame) (widths : List Nat) :
    (frameLine f widths).head? = some f.left := by
  cases widths with
  | nil | cons n widths => rfl

/-- The texts of a row stay on their lines, and their columns are wide enough for them. -/
theorem settled_rowsOf {columns : List ShownColumn} {texts : List (List Char)}
    (shaped : ∀ row ∈ t.rows, row.length = t.columns.length)
    (settled : ∀ row ∈ t.rows, ∀ cell ∈ row, ∀ text, Markup.plain emoji cell = .ok text →
      Settled text)
    (shown : shownColumns emoji t.rows t.columns = .ok columns)
    (member : texts ∈ rowsOf t.rows.length columns) :
    List.Forall₂ (fun c s => Settled s ∧ Text.width s ≤ c.width - 2) columns texts := by
  obtain ⟨row, inside, cells⟩ := exists_of_mem_right (shown_rowsOf shaped shown) member
  have whole : ∀ s ∈ texts, Settled s := by
    intro s hs
    obtain ⟨cell, hcell, plain⟩ := exists_of_mem_right cells hs
    exact settled row inside cell hcell s plain
  exact forall₂_and_right whole (fits_rowsOf _ texts member)

/-- In a table that the console has room for, each row is one line. -/
theorem exists_tableRows (fits : t.Fits emoji) (nonempty : t.columns ≠ [])
    (shaped : ∀ row ∈ t.rows, row.length = t.columns.length)
    (settled : ∀ row ∈ t.rows, ∀ cell ∈ row, ∀ text, Markup.plain emoji cell = .ok text →
      Settled text)
    {text : String} (h : t.text emoji = .ok text) :
    ∃ columns texts, columns ≠ [] ∧ List.Forall₂ (Shown emoji) t.rows texts ∧
      (∀ row ∈ texts, row.length = columns.length) ∧
      tableRows text.toList = texts.map (line columns) := by
  obtain ⟨columns, title, front, shown, -, whole⟩ := exists_lines h
  have nonempty : columns ≠ [] := by
    rintro rfl
    exact nonempty (List.length_eq_zero_iff.1 (length_shownColumns shown).symm)
  have each {texts : List (List Char)} (member : texts ∈ rowsOf t.rows.length columns) :=
    settled_rowsOf shaped settled shown member
  have widths := columnWidths_eq (fits columns shown)
  have body : (rowsOf t.rows.length columns).flatMap (fun texts =>
      rowLines rowLine (columns.zip ((columnWidths columns).zip texts))) =
        (rowsOf t.rows.length columns).map (line columns) := by
    rw [widths]
    exact (List.flatMap_congr fun texts member => rowLines_eq nonempty (each member)).trans
      List.map_eq_flatMap.symm
  refine ⟨columns, _, nonempty, shown_rowsOf shaped shown,
    fun texts member => (each member).length_eq.symm, ?_⟩
  rw [whole, body]
  refine tableRows_eq (head?_frameLine _ _) (not_mem_frameLine _ (by decide))
    (List.forall_mem_map.2 fun texts member => ⟨head?_line _ _, ?_⟩) (head?_frameLine _ _)
    (not_mem_frameLine _ (by decide))
  refine not_mem_line ?_ fun s hs => ?_
  · cases each member with
    | nil => exact absurd rfl nonempty
    | cons => exact List.cons_ne_nil _ _
  · obtain ⟨c, -, whole, -⟩ := exists_of_mem_right (each member) hs
    exact whole.feed

/-- A table can be printed exactly if its title and its cells can be shown. -/
theorem exists_text_iff (headed : ∀ c ∈ t.columns, Markup.Accepted c.head)
    (shaped : ∀ row ∈ t.rows, row.length = t.columns.length) :
    (∃ text, t.text emoji = .ok text) ↔ Markup.Accepted t.title ∧
      ∀ row ∈ t.rows, ∀ cell ∈ row, Markup.Accepted cell := by
  constructor
  · rintro ⟨text, h⟩
    obtain ⟨columns, title, -, shown, titled, -⟩ := exists_lines h
    refine ⟨Markup.accepted_of_plain titled, fun row member cell inside => ?_⟩
    obtain ⟨texts, -, rowShown⟩ := exists_of_mem_left (shown_rowsOf shaped shown) member
    obtain ⟨text, -, plain⟩ := exists_of_mem_left rowShown inside
    exact Markup.accepted_of_plain plain
  · rintro ⟨accepted, each⟩
    obtain ⟨title, titled⟩ := accepted.exists_plain emoji
    obtain ⟨columns, shown⟩ := exists_shownColumns headed shaped each
    rw [Table.text, Table.lines, shown, titled]
    exact ⟨_, rfl⟩

end Whole
end Table
end DependencyAudit.Console
