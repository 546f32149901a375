import DependencyAudit.Proofs.Command.PlainRow
import DependencyAudit.Proofs.Report.Row

/-!
Markdown pages, read back. The table of a page stands under a heading of its own. Whatever the
page is about, no line before the table is that heading, and the table has one row for each
verdict that is shown, from whose cells the line and the coordinate are read.
-/
namespace DependencyAudit.Markdown
open Text

/-- The columns of the table of a page. -/
def columns (mode : Mode) : Nat := if mode = .evidence then 7 else 6

section Figures
variable {v : Verdict}

theorem exists_sizeText (x : Float) :
    ∃ text, sizeText (some (.real x)) = .ok text ∧ IsCell text := by
  obtain ⟨s, unit, figure, rfl | rfl, written⟩ := Command.exists_sizeFigure x
  · exact ⟨_, written, isCell_figure figure " KB" (by decide) (by decide) (by decide)⟩
  · exact ⟨_, written, isCell_figure figure " MB" (by decide) (by decide) (by decide)⟩

theorem length_header (mode : Mode) : (header mode).length = columns mode := by
  rw [header, showsRecommendation, columns]
  split <;> simp_all

theorem isCell_header : ∀ mode, ∀ title ∈ header mode, IsCell title := by
  intro mode
  rw [header]
  split <;> decide

theorem isCell_recommendationText (r : Option Recommendation) : IsCell (recommendationText r) := by
  cases r with
  | none => decide
  | some r => cases r <;> decide

theorem isCell_natText (n : Nat) : IsCell (toString n) := by
  have cell := isCell_figure (.digits n) "" (by decide) (by decide) (by decide)
  rwa [String.append_empty] at cell

/-- The cells for a verdict with whole figures: its line, its coordinate as code, and others. -/
theorem exists_cells (h : Command.Showable v) (mode : Mode) :
    ∃ others, cells mode v =
        .ok (toString v.line :: ("`" ++ escapeCell v.coordinate ++ "`") :: others) ∧
      others.length + 2 = columns mode ∧
      ∀ cell ∈ toString v.line :: ("`" ++ escapeCell v.coordinate ++ "`") :: others,
        IsCell cell := by
  obtain ⟨line, place⟩ := h.line
  obtain ⟨percent, confidence⟩ := h.confidence
  obtain ⟨amount, cost⟩ := h.size
  obtain ⟨size, sized, sizeCell⟩ := exists_sizeText amount
  have place : toString v.line = toString line := by rw [place]; rfl
  have share : IsCell (String.ofList (intText percent) ++ "%") :=
    isCell_figure (.integer _) "%" (by decide) (by decide) (by decide)
  have label : ∀ c : Category, IsCell c.label := by rintro (_ | _) <;> decide
  have kind : ∀ k : Kind, IsCell k.name := by rintro (_ | _) <;> decide
  have coordinate : IsCell ("`" ++ escapeCell v.coordinate ++ "`") :=
    isCell_code fun c hc => isLineEnd_of_visible (h.visible c hc)
  refine ⟨[v.declaration.kind.name, v.category.label, String.ofList (intText percent) ++ "%", size]
    ++ (if showsRecommendation mode then [recommendationText v.recommendation] else []), ?_, ?_, ?_⟩
  · rw [cells, confidence, cost, sized]
    rfl
  · rw [← length_header, header]
    split <;> rfl
  · simp only [List.forall_mem_cons, List.forall_mem_append]
    refine ⟨place ▸ isCell_natText line, coordinate, ⟨kind _, label _, share, sizeCell, nofun⟩, ?_⟩
    split
    case isTrue => exact List.forall_mem_singleton.2 (isCell_recommendationText _)
    case isFalse => exact nofun

end Figures

section Totals
variable {verdicts : List Verdict} {sizes : List (Option Number)}

theorem exists_addSizes (each : ∀ size ∈ sizes, ∃ x : Float, size = some (.real x)) (sum : Float) :
    ∃ total, addSizes sum sizes = .ok total := by
  induction sizes generalizing sum with
  | nil => exact ⟨sum, rfl⟩
  | cons size sizes ih =>
      obtain ⟨⟨x, rfl⟩, rest⟩ := List.forall_mem_cons.1 each
      exact ih rest (sum + x)

theorem exists_ofVerdicts (each : ∀ v ∈ verdicts, ∃ x : Float, v.size = some (.real x)) :
    ∃ summary, Summary.ofVerdicts verdicts = .ok summary := by
  obtain ⟨size, all⟩ := exists_addSizes (List.forall_mem_map.2 each) 0
  have flagged : ∀ v ∈ verdicts.filter (·.flagged), ∃ x : Float, v.size = some (.real x) :=
    fun v member => each v (List.mem_filter.1 member).1
  obtain ⟨savings, saved⟩ := exists_addSizes (List.forall_mem_map.2 flagged) 0
  rw [Summary.ofVerdicts, all, saved]
  exact ⟨_, rfl⟩

/-- A line that begins with a dash. -/
def IsItem (s : String) : Prop := s.toList.head? = some '-' ∧ Unbroken s

instance : DecidablePred IsItem := fun _ => inferInstanceAs (Decidable (_ ∧ _))

theorem IsItem.append {s t : String} (h : IsItem s) (h' : Unbroken t) : IsItem (s ++ t) := by
  refine ⟨?_, h.2.append h'⟩
  rw [String.toList_append, List.head?_append, h.1]
  rfl

/-- The totals of a page are written as items. -/
theorem exists_totals (s : Summary) :
    ∃ first others, totals s = .ok (first :: others) ∧
      ∀ line ∈ first :: others, IsItem line := by
  obtain ⟨size, sized, sizeCell⟩ := exists_sizeText s.size
  obtain ⟨savings, saved, savingsCell⟩ := exists_sizeText s.savings
  have number (n : Nat) : Unbroken (toString n) := (isCell_natText n).whole
  have item {title text : String} (h : IsItem title) (h' : Unbroken text) :
      IsItem (title ++ text) := h.append h'
  rw [totals, sized, saved]
  refine ⟨_, _, rfl, List.forall_mem_cons.2 ⟨item (by decide) (number _),
    List.forall_mem_append.2 ⟨?_, fun line member => ?_⟩⟩⟩
  · simp only [List.forall_mem_cons]
    exact ⟨item (by decide) (number _), item (by decide) sizeCell.whole,
      item (by decide) savingsCell.whole, nofun⟩
  · obtain ⟨c, -, counted⟩ := List.mem_filterMap.1 member
    obtain ⟨entry, -, rfl⟩ := Option.map_eq_some_iff.1 counted
    have label : IsItem ("- " ++ c.label ++ ": ") := by cases c <;> decide
    exact label.append (number _)

end Totals

/-- The verdicts in the table of a page. -/
def tabled (r : Report) (flaggedOnly : Bool) : List Verdict :=
  if flaggedOnly then r.verdicts.filter (·.flagged) else r.verdicts

theorem mem_of_mem_tabled {r : Report} {flaggedOnly : Bool} {v : Verdict}
    (h : v ∈ tabled r flaggedOnly) : v ∈ r.verdicts := by
  rw [tabled] at h
  split at h
  case isTrue => exact (List.mem_filter.1 h).1
  case isFalse => exact h

/-- The lines of a page in front of its table, with the counts among them. -/
def headLines (r : Report) (counts : List String) : List String :=
  ["# Dependency audit: " ++ r.manifest, "", "_Mode: " ++ r.mode.name ++ "_"]
    ++ (r.evidence.filter (· ≠ "")).elim [] (fun name =>
      ["", "_Resolved evidence: " ++ name ++ "_"])
    ++ ["", "## Summary", ""] ++ counts ++ [""]

def declarationsTitle : String := "## Declarations"

def removalsTitle : String := "## Suggested removals"

section Lines
variable {xs : List String}

/-- Lines that each end with a line feed. -/
def ended (xs : List String) : List Char := (xs.map fun line => line.toList ++ ['\n']).flatten

theorem ended_append (xs ys : List String) : ended (xs ++ ys) = ended xs ++ ended ys := by
  rw [ended, ended, ended, List.map_append, List.flatten_append]

theorem toList_lines (nonempty : xs ≠ []) : (lines xs).toList ++ ['\n'] = ended xs := by
  induction xs with
  | nil => exact absurd rfl nonempty
  | cons line xs ih =>
      cases xs with
      | nil => simp [lines, ended]
      | cons next xs =>
          have rest := ih (List.cons_ne_nil _ _)
          rw [ended, List.map_cons, List.flatten_cons, ← ended, ← rest]
          simp [lines, String.intercalate_cons_cons]

theorem toList_source (evidence : Option String) :
    (source evidence).toList = ended ((evidence.filter (· ≠ "")).elim [] fun name =>
      ["", "_Resolved evidence: " ++ name ++ "_"]) := by
  rw [source]
  cases evidence.filter (· ≠ "") with
  | none => rfl
  | some name => simp [ended, toString]

end Lines

section Page
variable {r : Report} {flaggedOnly : Bool} {summary : Summary} {items body : List String}

/-- A page is its lines up to the table, the table, and what stands behind it. -/
theorem exists_page (summed : Summary.ofVerdicts r.verdicts = .ok summary)
    (told : totals summary = .ok items) (drawn : rows r.mode (tabled r flaggedOnly) = .ok body) :
    ∃ page, r.markdown flaggedOnly = .ok page ∧
      (items ≠ [] → body ≠ [] → tabled r flaggedOnly ≠ [] → ∃ rest, page.toList =
        ended (headLines r items ++ [declarationsTitle, ""] ++ body ++ ["", removalsTitle])
          ++ rest) := by
  rw [tabled] at drawn
  simp only [Report.markdown, summed, told, drawn, Except.mapError, bind, Except.bind, pure,
    Except.pure]
  refine ⟨_, rfl, fun counted bars nonempty => ?_⟩
  have listed : r.verdicts.isEmpty = false := by
    refine List.isEmpty_eq_false_iff.2 fun nothing => nonempty ?_
    rw [tabled, nothing]
    cases flaggedOnly <;> rfl
  have listed' : (if flaggedOnly then r.verdicts.filter (·.flagged) else r.verdicts).isEmpty
      = false := List.isEmpty_eq_false_iff.2 nonempty
  rw [listed, listed', if_neg Bool.false_ne_true, if_neg Bool.false_ne_true]
  -- what is removed may have any text, and none of it matters here
  generalize (if (Edit.ofVerdicts r.verdicts).isEmpty = true then "Nothing to remove."
    else lines ((Edit.ofVerdicts r.verdicts).map removal)) = removals
  refine ⟨'\n' :: removals.toList ++ ['\n'], ?_⟩
  simp only [toString, String.toList_append, ended_append, headLines, toList_source,
    ← toList_lines counted, ← toList_lines bars]
  simp [ended, declarationsTitle, removalsTitle]

end Page

/-- The lines under a heading up to the next one, without the empty ones. -/
def part (title : String) (lines : List (List Char)) : List (List Char) :=
  ((lines.dropWhile (· ≠ title.toList)).tail.takeWhile
    fun line => ¬ "## ".toList <+: line).filter (· ≠ [])

/-- A line of the table is read as the row of a verdict: it has as many cells as the table has
columns, the first is the line of the verdict and the second shows its coordinate. -/
def ReadsAs (mode : Mode) (line : String) (v : Verdict) : Prop :=
  ∃ code others, HasCells line.toList (toString v.line :: code :: others) ∧
    others.length + 2 = columns mode ∧ Shows code v.coordinate ∧
    cells mode v = .ok (toString v.line :: code :: others) ∧ Unbroken line

section Reading
variable {breaks : Char → Bool} {xs : List String} {mode : Mode} {verdicts : List Verdict}

theorem splitOnP_ended (feed : breaks '\n' = true)
    (whole : ∀ line ∈ xs, ∀ c ∈ line.toList, breaks c = false) (rest : List Char) :
    (ended xs ++ rest).splitOnP breaks = xs.map String.toList ++ rest.splitOnP breaks := by
  induction xs with
  | nil => rfl
  | cons line xs ih =>
      obtain ⟨first, others⟩ := List.forall_mem_cons.1 whole
      have joined : ended (line :: xs) ++ rest = line.toList ++ '\n' :: (ended xs ++ rest) := by
        simp [ended]
      rw [joined, List.splitOnP_append_cons_of_forall_mem first _ feed, ih others]
      rfl

theorem part_eq {title : String} {before body more : List (List Char)} {next : List Char}
    (other : ∀ line ∈ before, line ≠ title.toList)
    (inside : ∀ line ∈ body, ¬ "## ".toList <+: line) (heading : "## ".toList <+: next) :
    part title (before ++ title.toList :: (body ++ next :: more)) = body.filter (· ≠ []) := by
  have front : (before ++ title.toList :: (body ++ next :: more)).dropWhile (· ≠ title.toList)
      = title.toList :: (body ++ next :: more) := by
    rw [List.dropWhile_append_of_pos (by simpa using other), List.dropWhile_cons_of_neg (by simp)]
  rw [part, front, List.tail_cons,
    List.takeWhile_append_of_pos fun line member => decide_eq_true (inside line member),
    List.takeWhile_cons_of_neg (by simpa using heading), List.append_nil]

theorem exists_row {v : Verdict} (h : Command.Showable v) (mode : Mode) :
    ∃ line, (cells mode v).map row = .ok line ∧
      ReadsAs mode line v := by
  obtain ⟨others, shown, all, each⟩ := exists_cells h mode
  have nonempty := List.cons_ne_nil (toString v.line)
    (("`" ++ escapeCell v.coordinate ++ "`") :: others)
  refine ⟨_, by rw [shown]; rfl, _, others, hasCells_row nonempty each, all,
    shows_escapeCell v.coordinate, shown, unbroken_row nonempty each⟩

/-- The table has a heading, a ruler and a row for each verdict. -/
theorem exists_rows (each : ∀ v ∈ verdicts, Command.Showable v) (mode : Mode) :
    ∃ body, rows mode verdicts = .ok (row (header mode) :: ruler (columns mode) :: body) ∧
      List.Forall₂ (ReadsAs mode) body verdicts := by
  obtain ⟨body, drawn, all⟩ := exists_mapM fun v member => exists_row (each v member) mode
  exact ⟨body, by rw [rows, drawn, length_header]; rfl, all⟩

end Reading

section Table
variable {r : Report} {breaks : Char → Bool} {counts body : List String}

/-- What holds of each line that may stand in front of the table. -/
theorem forall_headLines {P : String → Prop} (manifest : P ("# Dependency audit: " ++ r.manifest))
    (mode : P ("_Mode: " ++ r.mode.name ++ "_"))
    (source : ∀ name ∈ r.evidence, P ("_Resolved evidence: " ++ name ++ "_"))
    (summary : P "## Summary") (empty : P "") (items : ∀ line ∈ counts, P line) :
    ∀ line ∈ headLines r counts, P line := by
  have told : ∀ line ∈ (r.evidence.filter (· ≠ "")).elim [] (fun name =>
      ["", "_Resolved evidence: " ++ name ++ "_"]), P line := by
    cases given : r.evidence.filter (· ≠ "") with
    | none => exact nofun
    | some name =>
        have named := source name (Option.filter_eq_some_iff.1 given).1
        exact List.forall_mem_cons.2 ⟨empty, List.forall_mem_singleton.2 named⟩
  simp only [headLines, List.forall_mem_append, List.forall_mem_cons]
  exact ⟨⟨⟨⟨⟨manifest, empty, mode, nofun⟩, told⟩, empty, summary, empty, nofun⟩, items⟩,
    empty, nofun⟩

/-- No line in front of the table is its heading. -/
theorem ne_title_of_mem_headLines (items : ∀ line ∈ counts, IsItem line) :
    ∀ line ∈ headLines r counts, line ≠ declarationsTitle := by
  have differ {s t : String} (start : ¬ s.toList <+: declarationsTitle.toList) :
      s ++ t ≠ declarationsTitle := by
    intro same
    rw [← same, String.toList_append] at start
    exact start (List.prefix_append _ _)
  refine forall_headLines (differ (by decide)) ?_ (fun name _ => ?_) (by decide)
    (by decide) fun line member same => ?_
  · rw [String.append_assoc]
    exact differ (by decide)
  · rw [String.append_assoc]
    exact differ (by decide)
  · have dash := (items line member).1
    rw [same] at dash
    cases dash

theorem breaks_headLines (ends : ∀ c, breaks c = true → isLineEnd c = true)
    (named : ∀ name ∈ r.manifest :: r.mode.name :: r.evidence.toList,
      ∀ c ∈ name.toList, breaks c = false)
    (items : ∀ line ∈ counts, IsItem line) :
    ∀ line ∈ headLines r counts, ∀ c ∈ line.toList, breaks c = false := by
  have plain {s : String} (whole : Unbroken s) : ∀ c ∈ s.toList, breaks c = false :=
    whole.free ends
  have append {s t : String} (h : ∀ c ∈ s.toList, breaks c = false)
      (h' : ∀ c ∈ t.toList, breaks c = false) : ∀ c ∈ (s ++ t).toList, breaks c = false := by
    rw [String.toList_append]
    exact List.forall_mem_append.2 ⟨h, h'⟩
  obtain ⟨manifest, named⟩ := List.forall_mem_cons.1 named
  obtain ⟨mode, named⟩ := List.forall_mem_cons.1 named
  exact forall_headLines (append (plain (by decide)) manifest)
    (append (append (plain (by decide)) mode) (plain (by decide)))
    (fun name given => append (append (plain (by decide)) (named name (Option.mem_toList.2 given)))
      (plain (by decide)))
    (plain (by decide)) (plain (by decide)) (fun line member => plain (items line member).2)

theorem hasCells_header (mode : Mode) : HasCells (row (header mode)).toList (header mode) :=
  hasCells_row (List.cons_ne_nil _ _) (isCell_header mode)

theorem hasCells_ruler (mode : Mode) :
    HasCells (ruler (columns mode)).toList (List.replicate (columns mode) "---") := by
  rw [columns]
  split
  case isTrue => exact ⟨List.replicate 7 "---".toList, by decide, by decide⟩
  case isFalse => exact ⟨List.replicate 6 "---".toList, by decide, by decide⟩

theorem unbroken_ruler (mode : Mode) : Unbroken (ruler (columns mode)) := by
  rw [columns]
  split <;> decide

/-- The part of a page under the heading of its table is the table. -/
theorem part_declarations (feed : breaks '\n' = true)
    (ends : ∀ c, breaks c = true → isLineEnd c = true)
    (named : ∀ name ∈ r.manifest :: r.mode.name :: r.evidence.toList,
      ∀ c ∈ name.toList, breaks c = false)
    (items : ∀ line ∈ counts, IsItem line)
    (table : ∀ line ∈ body, Unbroken line ∧ line.toList.head? = some '|') (rest : List Char) :
    part declarationsTitle ((ended (headLines r counts ++ [declarationsTitle, ""] ++ body
      ++ ["", removalsTitle]) ++ rest).splitOnP breaks) = body.map String.toList := by
  have whole : ∀ line ∈ headLines r counts ++ [declarationsTitle, ""] ++ body ++ ["", removalsTitle],
      ∀ c ∈ line.toList, breaks c = false := by
    have constant : ∀ line ∈ ["", declarationsTitle, removalsTitle], Unbroken line := by decide
    simp only [List.forall_mem_append, List.forall_mem_cons] at constant ⊢
    obtain ⟨empty, title, next, -⟩ := constant
    exact ⟨⟨⟨breaks_headLines ends named items, title.free ends, empty.free ends, nofun⟩,
      fun line member => (table line member).1.free ends⟩, empty.free ends, next.free ends, nofun⟩
  have shape (more : List (List Char)) :
      (headLines r counts ++ [declarationsTitle, ""] ++ body ++ ["", removalsTitle]).map
          String.toList ++ more = (headLines r counts).map String.toList ++
        declarationsTitle.toList :: (([] :: body.map String.toList ++ [[]]) ++
          removalsTitle.toList :: more) := by
    simp
  have before : ∀ line ∈ (headLines r counts).map String.toList,
      line ≠ declarationsTitle.toList := by
    intro piece member same
    obtain ⟨line, early, rfl⟩ := List.mem_map.1 member
    exact ne_title_of_mem_headLines items line early (String.toList_inj.1 same)
  have bars : ∀ line ∈ body.map String.toList, line.head? = some '|' :=
    List.forall_mem_map.2 fun line member => (table line member).2
  have inside : ∀ line ∈ [] :: body.map String.toList ++ [[]], ¬ "## ".toList <+: line := by
    refine List.forall_mem_append.2 ⟨List.forall_mem_cons.2 ⟨by decide, ?_⟩,
      List.forall_mem_singleton.2 (by decide)⟩
    rintro line member ⟨more, rfl⟩
    cases bars _ member
  have kept : (body.map String.toList).filter (· ≠ []) = body.map String.toList := by
    refine List.filter_eq_self.2 fun line member => decide_eq_true ?_
    rintro rfl
    cases bars _ member
  rw [splitOnP_ended feed whole, shape, part_eq before inside (by decide), List.cons_append,
    List.filter_cons_of_neg (by simp), List.filter_append, kept]
  exact List.append_nil _

end Table

/-- A page with verdicts of audits is always had, and if any verdict is shown, the part of it
under the heading for declarations is a table: a heading and a ruler with six columns, or with
seven if the page rests on evidence, and a row for each verdict that is shown, in order. The
first cell of a row is the line of its verdict, and the second shows the coordinate. -/
theorem reads_declarations (r : Report) (flaggedOnly : Bool) (breaks : Char → Bool)
    (audited : ∀ v ∈ r.verdicts, ∃ tables evidence lines, v ∈ audit tables evidence lines)
    (feed : breaks '\n' = true) (ends : ∀ c, breaks c = true → isLineEnd c = true)
    (named : ∀ name ∈ r.manifest :: r.mode.name :: r.evidence.toList,
      ∀ c ∈ name.toList, breaks c = false) :
    ∃ page, r.markdown flaggedOnly = .ok page ∧ (tabled r flaggedOnly ≠ [] →
      (header r.mode).length = columns r.mode ∧
      HasCells (row (header r.mode)).toList (header r.mode) ∧
      HasCells (ruler (columns r.mode)).toList (List.replicate (columns r.mode) "---") ∧
      ∃ body, List.Forall₂ (ReadsAs r.mode) body (tabled r flaggedOnly) ∧
        part declarationsTitle (page.toList.splitOnP breaks)
          = (row (header r.mode) :: ruler (columns r.mode) :: body).map String.toList) := by
  have showable : ∀ v ∈ r.verdicts, Command.Showable v := by
    intro v member
    obtain ⟨tables, evidence, lines, member⟩ := audited v member
    exact Command.showable_of_mem_audit member
  obtain ⟨summary, summed⟩ := exists_ofVerdicts fun v member => (showable v member).size
  obtain ⟨first, counts, told, items⟩ := exists_totals summary
  obtain ⟨body, drawn, all⟩ := exists_rows
    (fun v (member : v ∈ tabled r flaggedOnly) => showable v (mem_of_mem_tabled member)) r.mode
  obtain ⟨page, written, text⟩ := exists_page summed told drawn
  refine ⟨page, written, fun nonempty =>
    ⟨length_header _, hasCells_header _, hasCells_ruler _, body, all, ?_⟩⟩
  obtain ⟨rest, text⟩ := text (List.cons_ne_nil _ _) (List.cons_ne_nil _ _) nonempty
  have heading : Unbroken (row (header r.mode)) :=
    unbroken_row (List.cons_ne_nil _ _) (isCell_header r.mode)
  have bars : ∀ line ∈ body, Unbroken line ∧ line.toList.head? = some '|' := by
    refine ((List.forall₂_and_left _ _).1 (all.imp fun line v reads => ⟨?_, reads⟩)).1
    obtain ⟨code, others, cells, -, -, -, whole⟩ := reads
    exact ⟨whole, head?_of_hasCells cells⟩
  have table : ∀ line ∈ row (header r.mode) :: ruler (columns r.mode) :: body,
      Unbroken line ∧ line.toList.head? = some '|' :=
    List.forall_mem_cons.2 ⟨⟨heading, head?_of_hasCells (hasCells_header _)⟩,
      List.forall_mem_cons.2 ⟨⟨unbroken_ruler _, head?_of_hasCells (hasCells_ruler _)⟩, bars⟩⟩
  rw [text]
  exact part_declarations feed ends named items table rest

/-- Bars, one of them behind a backslash, and a backtick in a coordinate. -/
theorem reads_declarations_of_bars :
    let verdicts := audit Tables.builtIn (some ["x:y:1"])
      ["api(\"a:b|c:d\\|e`\")", "testImplementation 'x:y:1'"]
    let r : Report := ⟨"build.gradle.kts", .evidence, some "r.json", verdicts⟩
    verdicts.map (fun v => (v.line, v.coordinate)) = [(1, "a:b|c:d\\|e`"), (2, "x:y:1")] ∧
      ∃ page body, r.markdown false = .ok page ∧ List.Forall₂ (ReadsAs .evidence) body verdicts ∧
        part declarationsTitle (page.toList.splitOnP isLineEnd)
          = (row (header .evidence) :: ruler 7 :: body).map String.toList := by
  intro verdicts r
  have read : verdicts.map (fun v => (v.line, v.coordinate)) =
      [(1, "a:b|c:d\\|e`"), (2, "x:y:1")] := by
    decide +kernel
  have shown : tabled r false ≠ [] := by
    intro nothing
    have nothing : verdicts = [] := nothing
    rw [nothing] at read
    cases read
  have named : ∀ name ∈ r.manifest :: r.mode.name :: r.evidence.toList,
      ∀ c ∈ name.toList, isLineEnd c = false := by
    have whole : ∀ name ∈ ["build.gradle.kts", "evidence", "r.json"], Unbroken name := by decide
    exact fun name member => (whole name member).free fun _ => id
  obtain ⟨page, written, table⟩ := reads_declarations r false isLineEnd
    (fun v member => ⟨_, _, _, member⟩) (by decide) (fun _ => id) named
  obtain ⟨-, -, -, body, reads, drawn⟩ := table shown
  exact ⟨read, page, body, written, reads, drawn⟩

end DependencyAudit.Markdown
