import DependencyAudit.Command.Declarations
import DependencyAudit.Proofs.Command.Verbosity
import DependencyAudit.Proofs.Command.PlainTable
import DependencyAudit.Proofs.Command.PrintedPatch
import DependencyAudit.Proofs.Console.Shows

/-!
Tables that runs print on the console. Cells are markup there, and what stands in a coordinate is
up to the script. So an audit and a list of declarations, with coordinates that hold no code of an
emoji, end well and show every coordinate as it is declared exactly if the coordinates have nothing
in them that is read as markup, and the other texts, which are about files, can be shown.
-/
namespace DependencyAudit.Command
open Text Console

section Texts
variable {emoji : Emoji} {s t : String}

/-- A character that markup and the console leave as it is. -/
def isTame (c : Char) : Bool := ' ' ≤ c && c ≠ '[' && c ≠ '\\' && c ≠ ':'

def Tame (s : String) : Prop := ∀ c ∈ s.toList, isTame c = true

instance : DecidablePred Tame := fun s => decidableForallMem s.toList _

theorem Tame.append (h : Tame s) (h' : Tame t) : Tame (s ++ t) := by
  rw [Tame, String.toList_append]
  exact List.forall_mem_append.2 ⟨h, h'⟩

theorem movesBack_of_le {c : Char} (h : ' ' ≤ c) : movesBack c = false := by
  rw [← Bool.not_eq_true]
  intro moves
  have low : ∀ n ∈ [0x07, 0x08, 0x0B, 0x0C, 0x0D], n < 32 := by decide
  have less := low c.toNat (List.contains_iff_mem.1 moves)
  have least : (' ' : Char).toNat ≤ c.toNat := h
  exact absurd less (not_lt.2 least)

theorem Tame.unmarked (h : Tame s) : Markup.Unmarked s.toList := by
  refine Markup.unmarked_of_forall fun c member => ?_
  have tame := h c member
  simp only [isTame, Bool.and_eq_true, decide_eq_true_eq] at tame
  obtain ⟨⟨⟨least, bracket⟩, slash⟩, -⟩ := tame
  exact ⟨bracket, slash, movesBack_of_le least⟩

theorem Tame.free (h : Tame s) (emoji : Emoji) : emoji.Free s.toList :=
  Emoji.free_of_not_mem fun colon => absurd (h ':' colon) (by decide)

theorem Tame.settled (h : Tame s) (ends : trimRight s.toList = s.toList) : Settled s.toList where
  feed member := absurd (h _ member) (by decide)
  tab member := absurd (h _ member) (by decide)
  ends

theorem Tame.safe (h : Tame s) (ends : trimRight s.toList = s.toList) : Table.Safe emoji s :=
  ⟨_, Markup.plain_of_unmarked (h.free emoji) h.unmarked, h.settled ends, h.unmarked⟩

theorem tame_figure {digits : List Char} (h : Figure digits) : Tame (String.ofList digits) := by
  intro c member
  rw [String.toList_ofList] at member
  have figure := h.2 c member
  have bracket : c ≠ '[' := by
    rintro rfl
    cases figure
  have slash : c ≠ '\\' := by
    rintro rfl
    cases figure
  have colon : c ≠ ':' := by
    rintro rfl
    cases figure
  simp [isTame, bracket, slash, colon, (calm_of_figure h c member).le]

theorem safe_figure {digits : List Char} (h : Figure digits) {unit : String} (tame : Tame unit)
    (ends : unit.toList.getLast?.all (!isBlank ·) = true) :
    Table.Safe emoji (String.ofList digits ++ unit) := by
  refine ((tame_figure h).append tame).safe (trimRight_eq_self ?_)
  rw [String.toList_append, String.toList_ofList, List.getLast?_append]
  cases last : unit.toList.getLast? with
  | some c =>
      rw [last] at ends
      simpa using ends
  | none =>
      intro c member
      exact isBlank_of_isFigure (h.2 c (List.mem_of_getLast? member))

theorem safe_kind (k : Kind) : Table.Safe emoji k.name := by
  have tame : Tame k.name ∧ trimRight k.name.toList = k.name.toList := by cases k <;> decide
  exact tame.1.safe tame.2

theorem safe_category (c : Category) : Table.Safe emoji c.markup := by
  have free : emoji.Free c.markup.toList := Emoji.free_of_not_mem (by cases c <;> decide)
  have plain : Markup.plain emoji c.markup = .ok c.label.toList := by
    rw [Markup.plain_eq free]
    cases c <;> decide +kernel
  have tame : Tame c.label ∧ trimRight c.label.toList = c.label.toList := by cases c <;> decide
  exact ⟨_, plain, tame.1.settled tame.2, tame.1.unmarked⟩

theorem safe_recommendation (r : Option Recommendation) :
    Table.Safe emoji (recommendationText r) := by
  obtain ⟨colons, unmarked, feed, tab, ends⟩ :
      (recommendationText r).toList.count ':' ≤ 1 ∧
        Markup.Unmarked (recommendationText r).toList ∧ '\n' ∉ (recommendationText r).toList ∧
        '\t' ∉ (recommendationText r).toList ∧
        trimRight (recommendationText r).toList = (recommendationText r).toList := by
    cases r with
    | none => decide +kernel
    | some r => cases r <;> decide +kernel
  exact ⟨_, Markup.plain_of_unmarked (Emoji.free_of_count_le colons) unmarked,
    ⟨feed, tab, ends⟩, unmarked⟩

theorem exists_safe_size (emoji : Emoji) (x : Float) :
    ∃ size, sizeText (some (.real x)) = .ok size ∧ Tame size ∧ Table.Safe emoji size := by
  obtain ⟨digits, unit, figure, known, written⟩ := exists_sizeFigure x
  have tame : Tame unit ∧ unit.toList.getLast?.all (!isBlank ·) = true := by
    obtain rfl | rfl := known <;> decide
  exact ⟨_, written, (tame_figure figure).append tame.1, safe_figure figure tame.1 tame.2⟩

end Texts

section Rows
variable {emoji : Emoji} {v : Verdict} {d : Declaration}

/-- What a list of declarations shows of a coordinate, each in a cell of its own. -/
def Declarations.parts (d : Declaration) : List String :=
  [d.coordinate.group, d.coordinate.artifact, d.coordinate.version]

theorem visible_parts (h : ∀ c ∈ d.coordinate.text.toList, isBlank c = false) :
    ∀ p ∈ Declarations.parts d, ∀ c ∈ p.toList, isBlank c = false := by
  rw [Coordinate.toList_text] at h
  simp only [Declarations.parts, List.forall_mem_append, List.forall_mem_cons] at h ⊢
  obtain ⟨group, -, artifact, -, version⟩ := h
  exact ⟨group, artifact, version, nofun⟩

/-- The parts of a coordinate have no code in them that the coordinate has not. -/
theorem free_parts (h : emoji.Free d.coordinate.text.toList) :
    ∀ p ∈ Declarations.parts d, emoji.Free p.toList := by
  rw [Coordinate.toList_text] at h
  simp only [Declarations.parts, List.forall_mem_cons]
  refine ⟨h.of_infix ?_, h.of_infix ?_, h.of_infix ?_, nofun⟩
  · exact List.infix_append_left
  · exact ⟨d.coordinate.group.toList ++ [':'], ':' :: d.coordinate.version.toList, by simp⟩
  · exact ⟨d.coordinate.group.toList ++ ':' :: d.coordinate.artifact.toList ++ [':'], [], by simp⟩

theorem rowOf_declaration (line : ∃ n : Nat, d.line = n)
    (visible : ∀ c ∈ d.coordinate.text.toList, isBlank c = false)
    (free : emoji.Free d.coordinate.text.toList) :
    Table.RowOf emoji (Declarations.parts d) (Declarations.cells d) where
  inside := by simp [Declarations.cells, Declarations.parts]
  visible := visible_parts visible
  free := free_parts free
  others := by
    obtain ⟨n, place⟩ := line
    have number : toString d.line = String.ofList (natText n) ++ "" := by
      rw [place, String.append_empty]
      rfl
    simp only [Declarations.cells, List.forall_mem_cons, number]
    refine ⟨.inr (safe_figure (.digits n) (by decide) (by decide)), .inr (safe_kind _), ?_⟩
    simp [Declarations.parts]

/-- The cells of a verdict with whole figures, with its coordinate as one of them. -/
theorem exists_rowOf_verdict (h : Showable v) (mode : Mode) :
    ∃ cells, Audit.tableCells mode v = .ok cells ∧ cells.length = (Audit.columns mode).length ∧
      (emoji.Free v.coordinate.toList → Table.RowOf emoji [v.coordinate] cells) := by
  obtain ⟨line, place⟩ := h.line
  obtain ⟨percent, confidence⟩ := h.confidence
  obtain ⟨amount, cost⟩ := h.size
  obtain ⟨size, sized, -, shown⟩ := exists_safe_size emoji amount
  have number : toString v.line = String.ofList (natText line) ++ "" := by
    rw [place, String.append_empty]
    rfl
  refine ⟨[toString v.line, v.coordinate, v.declaration.kind.name, v.category.markup,
    String.ofList (intText percent) ++ "%", size]
      ++ if mode = .evidence then [recommendationText v.recommendation] else [], ?_, ?_,
    fun free => ?_⟩
  · rw [Audit.tableCells, confidence, cost, sized]
    rfl
  · rw [Audit.columns]
    split <;> rfl
  · refine ⟨by simp, by simpa using h.visible, by simpa using free, ?_⟩
    simp only [List.forall_mem_append, List.forall_mem_cons, number]
    refine ⟨⟨.inr (safe_figure (.digits line) (by decide) (by decide)), .inl (by simp),
      .inr (safe_kind _), .inr (safe_category _),
      .inr (safe_figure (.integer percent) (by decide) (by decide)), .inr shown, nofun⟩, ?_⟩
    split
    case isTrue => exact List.forall_mem_singleton.2 (.inr (safe_recommendation _))
    case isFalse => exact nofun

end Rows

section Runs
variable {s : Session} {pieces : List Piece}

theorem printed_eq_none_iff : (printed pieces).2 = none ↔ ∀ p ∈ pieces, ∃ text, p = .ok text := by
  refine ⟨fun whole => ?_, Audit.printed_of_forall_ok⟩
  induction pieces with
  | nil => exact nofun
  | cons p pieces ih =>
      cases p with
      | error c => cases whole
      | ok text => exact List.forall_mem_cons.2 ⟨⟨text, rfl⟩, ih whole⟩

theorem exists_console_iff {p : Piece} :
    (∃ said, s.console p = .ok said) ↔ ∃ text, p = .ok text := by
  cases p with
  | error c =>
      constructor <;> rintro ⟨_, same⟩ <;> cases same
  | ok text => exact iff_of_true ⟨_, rfl⟩ ⟨text, rfl⟩

theorem exists_markup_iff {text : String} :
    (∃ said, s.markup text = .ok said) ↔ Markup.Accepted text := by
  rw [Session.markup, exists_console_iff]
  simp only [mapError_eq_ok_iff, shownMarkup, map_eq_ok_iff]
  constructor
  · rintro ⟨_, t, shown, -⟩
    exact Markup.accepted_of_plain shown
  · intro accepted
    obtain ⟨t, shown⟩ := accepted.exists_plain s.env.emoji
    exact ⟨_, t, shown, rfl⟩

theorem exists_table_iff {t : Console.Table} :
    (∃ said, s.table t = .ok said) ↔ ∃ text, t.text s.env.emoji = .ok text := by
  rw [Session.table, exists_console_iff]
  simp only [mapError_eq_ok_iff]

theorem table_of_loud (loud : s.general.quiet = false) {t : Console.Table} {text : String}
    (h : t.text s.env.emoji = .ok text) : s.table t = .ok text := by
  rw [Session.table, h, Session.console, loud]
  rfl

/-- A run ends well, and each row of a table in its output shows its parts. -/
def ShowsRows (emoji : Emoji) (o : Outcome) (t : Console.Table) (parts : List (List String)) :
    Prop :=
  o.ending = .exit 0 ∧
    ∃ text, t.text emoji = .ok text ∧ text.toList <:+: o.output.toList ∧ Table.RowsShow parts text

end Runs

namespace Declarations
variable {s : Session} {manifest : Path} {lines : List String} {declarations : List Declaration}

/-- The table of the declarations of a script. -/
def table (manifest : Path) (declarations : List Declaration) : Console.Table :=
  ⟨s!"Declarations in {manifest.name} ({declarations.length} total)", columns,
    declarations.map cells⟩

theorem shows_iff {emoji : Emoji} (declared : Declaration.ofLines lines = declarations)
    (free : ∀ d ∈ declarations, emoji.Free d.coordinate.text.toList)
    (fits : (table manifest declarations).Fits emoji) :
    (∃ text, (table manifest declarations).text emoji = .ok text ∧
        Table.RowsShow (declarations.map parts) text) ↔
      Markup.Accepted (table manifest declarations).title ∧
        ∀ d ∈ declarations, ∀ p ∈ parts d, Markup.Unmarked p.toList := by
  have heads : ∀ c ∈ columns, Tame c.head := by decide
  have rows : List.Forall₂ (Table.RowOf emoji) (declarations.map parts)
      (declarations.map cells) := by
    rw [List.forall₂_map_left_iff, List.forall₂_map_right_iff, List.forall₂_same]
    intro d member
    have bare := free d member
    rw [← declared] at member
    obtain ⟨literal, written⟩ := Declaration.exists_literal member
    have first := Declaration.one_le_line member
    exact rowOf_declaration ⟨d.line.toNat, by omega⟩ written.visible bare
  have shaped : ∀ row ∈ declarations.map cells, row.length = columns.length :=
    List.forall_mem_map.2 fun d _ => rfl
  have shown := Table.shows_iff fits (List.cons_ne_nil _ _)
    (fun c member => (heads c member).unmarked.accepted) shaped rows
  rwa [List.forall_mem_map] at shown

section Runs
variable (json : s.general.json = false) (plain : s.general.plain = false)
  (read : s.readScript manifest = .ok lines) (declared : Declaration.ofLines lines = declarations)

include json plain read declared

theorem run_eq : run s manifest = .ofPieces s.files [s.table (table manifest declarations)] := by
  rw [run, read]
  simp only [pieces, json, plain, declared, Bool.false_eq_true, if_false]
  rfl

theorem ending_iff :
    (run s manifest).ending = .exit 0 ↔
      ∃ text, (table manifest declarations).text s.env.emoji = .ok text := by
  rw [run_eq json plain read declared, ending_ofPieces_iff, printed_eq_none_iff,
    List.forall_mem_singleton, exists_table_iff]

theorem showsRows_iff (loud : s.general.quiet = false) (parts : List (List String)) :
    ShowsRows s.env.emoji (run s manifest) (table manifest declarations) parts ↔
      ∃ text, (table manifest declarations).text s.env.emoji = .ok text ∧
        Table.RowsShow parts text := by
  constructor
  · rintro ⟨-, text, shown, -, stands⟩
    exact ⟨text, shown, stands⟩
  · rintro ⟨text, shown, stands⟩
    refine ⟨(ending_iff json plain read declared).2 ⟨text, shown⟩, text, shown, ?_, stands⟩
    rw [run_eq json plain read declared, table_of_loud loud shown]
    simp [Outcome.ofPieces, Command.printed]

end Runs
end Declarations

namespace Audit
variable {s : Session} {r : AuditRequest} {a : Audit} {t : Console.Table}

/-- What is said of the file that a report is written to. -/
def places (a : Audit) : List String :=
  (a.request.outputFile.map fun path => s!"Report written to: {path.text}").toList

/-- Texts about files that an audit prints as markup, beside its table. -/
def markups (s : Session) (a : Audit) : List String :=
  (if s.general.verbose then [a.opening] else []) ++ a.places

theorem printed_log_iff (prepared : Prepared s r a) (json : s.general.json = false) :
    (printed (a.log s)).2 = none ↔
      ∀ text ∈ (if s.general.verbose then [a.opening] else []), Markup.Accepted text := by
  cases verbose : s.general.verbose with
  | false =>
      rw [log_of_silent verbose]
      exact iff_of_true rfl nofun
  | true =>
      have same : s.verbosely = s := by
        rw [Session.verbosely, ← verbose]
      obtain ⟨rest, logged, whole⟩ := exists_log_verbosely prepared json
      rw [same] at logged
      rw [logged, printed_eq_none_iff, List.forall_mem_cons, exists_markup_iff, if_pos rfl,
        List.forall_mem_singleton]
      exact and_iff_left whole

theorem Prepared.exists_table (prepared : Prepared s r a) (emoji : Emoji) :
    ∃ t, a.table = .ok t ∧ t.columns = columns a.basis.mode ∧
      (∀ row ∈ t.rows, row.length = t.columns.length) ∧
      ((∀ v ∈ a.shown, emoji.Free v.coordinate.toList) →
        List.Forall₂ (Table.RowOf emoji) (a.shown.map fun v => [v.coordinate]) t.rows) := by
  have each : ∀ v ∈ a.shown, ∃ cells, tableCells a.basis.mode v = .ok cells ∧
      cells.length = (columns a.basis.mode).length ∧
        (emoji.Free v.coordinate.toList → Table.RowOf emoji [v.coordinate] cells) :=
    fun v member => exists_rowOf_verdict (prepared.showable v (mem_of_mem_shown member)) _
  obtain ⟨rows, drawn, all⟩ := exists_mapM each
  refine ⟨_, bind_eq_ok_iff.2 ⟨rows, drawn, rfl⟩, rfl, fun row member => ?_, fun free => ?_⟩
  · obtain ⟨v, -, same, -⟩ := exists_of_mem_left all member
    exact same
  · rw [List.forall₂_map_left_iff]
    exact ((forall₂_and_right free all).imp fun cells v both => both.2.2 both.1).flip

theorem exists_totalsLine (s : Session) (a : Audit) : ∃ said, a.totalsLine s = .ok said := by
  obtain ⟨savings, written, tame, -⟩ := exists_safe_size .empty a.summary.savings
  have number (n : Nat) : Tame (toString n) := tame_figure (.digits n)
  have declared : Tame s!"Flagged {a.summary.flagged} of {a.summary.total} declarations, " :=
    ((((show Tame "Flagged " by decide).append (number _)).append (by decide)).append
      (number _)).append (by decide)
  have saved : Tame s!"estimated savings {savings}" :=
    (show Tame "estimated savings " by decide).append tame
  rw [totalsLine, written]
  exact exists_markup_iff.2 (declared.append saved).unmarked.accepted

/-- Of what an audit with a table prints only the table and the place of a file can be refused. -/
theorem printed_pieces_iff (report : a.isDocument s = false) (plain : s.general.plain = false)
    (format : a.format = .table) (drawn : a.table = .ok t) :
    (printed (a.pieces s)).2 = none ↔
      (∃ text, t.text s.env.emoji = .ok text) ∧ ∀ text ∈ a.places, Markup.Accepted text := by
  have patch : ∀ p ∈ if a.request.patch then
      [s.line (if a.patch = "" then "Nothing to remove." else a.patch)] else [],
      ∃ text, p = .ok text := by
    split
    · exact List.forall_mem_singleton.2 ⟨_, rfl⟩
    · exact nofun
  have totals := exists_totalsLine s a
  have console : a.consoleReport s = [s.table t, a.totalsLine s] := by
    rw [consoleReport, format, if_neg (by decide), drawn]
  have place : (∀ p ∈ (a.request.outputFile.map fun path =>
      s.markup s!"Report written to: {path.text}").toList, ∃ text, p = .ok text) ↔
      ∀ text ∈ a.places, Markup.Accepted text := by
    rw [places]
    cases a.request.outputFile with
    | none => exact iff_of_true nofun nofun
    | some path =>
        simp only [Option.map_some, Option.toList_some, List.forall_mem_singleton,
          exists_markup_iff]
  rw [pieces_eq report, if_neg (by simp [plain]), consolePieces, console, printed_eq_none_iff,
    List.forall_mem_append, List.forall_mem_append, place]
  simp only [List.forall_mem_cons, exists_table_iff]
  constructor
  · rintro ⟨⟨⟨drawn, -⟩, -⟩, place⟩
    exact ⟨drawn, place⟩
  · rintro ⟨drawn, place⟩
    exact ⟨⟨⟨drawn, totals, nofun⟩, patch⟩, place⟩

theorem ending_iff {written : FileTree} (prepared : Prepared s r a)
    (json : s.general.json = false) (plain : s.general.plain = false) (format : a.format = .table)
    (drawn : a.table = .ok t) (saved : a.write s = .ok written) :
    (run s r).ending = .exit 0 ↔
      (∃ text, t.text s.env.emoji = .ok text) ∧ ∀ text ∈ a.markups s, Markup.Accepted text := by
  have report : a.isDocument s = false := by simp [isDocument, json, format]
  have both : (run s r).ending = .exit 0 ↔
      (printed (a.log s)).2 = none ∧ (printed (a.pieces s)).2 = none := by
    rw [run_of_prepared prepared, saved]
    constructor
    · intro done
      obtain ⟨said, -, whole, -⟩ := writing_ended done
      exact ⟨said, whole⟩
    · rintro ⟨said, whole⟩
      rw [writing_of_whole said whole]
  rw [both, printed_log_iff prepared json, printed_pieces_iff report plain format drawn, markups,
    List.forall_mem_append]
  exact and_left_comm

theorem showsRows_iff {written : FileTree} (prepared : Prepared s r a)
    (loud : s.general.quiet = false) (json : s.general.json = false)
    (plain : s.general.plain = false) (format : a.format = .table) (drawn : a.table = .ok t)
    (saved : a.write s = .ok written) (parts : List (List String)) :
    ShowsRows s.env.emoji (run s r) t parts ↔ (∀ text ∈ a.markups s, Markup.Accepted text) ∧
      ∃ text, t.text s.env.emoji = .ok text ∧ Table.RowsShow parts text := by
  have ends := ending_iff prepared json plain format drawn saved
  constructor
  · rintro ⟨done, text, whole, -, stands⟩
    exact ⟨(ends.1 done).2, text, whole, stands⟩
  · rintro ⟨accepted, text, shown, stands⟩
    have done := ends.2 ⟨⟨text, shown⟩, accepted⟩
    refine ⟨done, text, shown, ?_, stands⟩
    have report : a.isDocument s = false := by simp [isDocument, json, format]
    obtain ⟨rest, first⟩ : ∃ rest, a.pieces s = .ok text :: rest := by
      rw [pieces_eq report, if_neg (by simp [plain]), consolePieces, consoleReport, format,
        if_neg (by decide), drawn, ← table_of_loud loud shown]
      exact ⟨_, rfl⟩
    rw [run_of_prepared prepared] at done ⊢
    obtain ⟨-, -, -, output⟩ := writing_ended done
    rw [output, first, printed]
    simp only [String.toList_append]
    exact (List.infix_append_left.trans List.infix_append_right)

theorem shows_iff {emoji : Emoji} (prepared : Prepared s r a) (drawn : a.table = .ok t)
    (free : ∀ v ∈ a.shown, emoji.Free v.coordinate.toList) (fits : t.Fits emoji) :
    (∃ text, t.text emoji = .ok text ∧
        Table.RowsShow (a.shown.map fun v => [v.coordinate]) text) ↔
      Markup.Accepted t.title ∧ ∀ v ∈ a.shown, Markup.Unmarked v.coordinate.toList := by
  obtain ⟨_, drawn', heads, shaped, rows⟩ := prepared.exists_table emoji
  cases drawn.symm.trans drawn'
  have tame : ∀ c ∈ columns a.basis.mode, Tame c.head := by
    rw [columns]
    split <;> decide
  have shown := Table.shows_iff fits (by rw [heads]; exact List.cons_ne_nil _ _)
    (fun c member => (tame c (heads ▸ member)).unmarked.accepted) shaped (rows free)
  simpa only [List.forall_mem_map, List.forall_mem_singleton] using shown

end Audit

/-- With room for its lines, a table on the console shows coordinates without codes of emoji as
they are declared exactly if nothing in them is read as markup: a list of declarations the three
parts, and an audit each coordinate as a whole. The title, and what else an audit says of files,
has to be shown as well. -/
theorem shows_coordinates_iff {s : Session} (loud : s.general.quiet = false)
    (json : s.general.json = false) (plain : s.general.plain = false) :
    (∀ manifest lines, s.readScript manifest = .ok lines →
      let declarations := Declaration.ofLines lines
      let t := Declarations.table manifest declarations
      (∀ d ∈ declarations, s.env.emoji.Free d.coordinate.text.toList) → t.Fits s.env.emoji →
        (ShowsRows s.env.emoji (Declarations.run s manifest) t
            (declarations.map Declarations.parts) ↔
          Markup.Accepted t.title ∧
            ∀ d ∈ declarations, ∀ p ∈ Declarations.parts d, Markup.Unmarked p.toList)) ∧
      ∀ r a, Audit.prepare s r = .ok a → a.format = .table →
        (∃ written, a.write s = .ok written) →
        ∃ t, a.table = .ok t ∧
          ((∀ v ∈ a.shown, s.env.emoji.Free v.coordinate.toList) → t.Fits s.env.emoji →
            (ShowsRows s.env.emoji (Audit.run s r) t (a.shown.map fun v => [v.coordinate]) ↔
              (∀ text ∈ t.title :: a.markups s, Markup.Accepted text) ∧
                ∀ v ∈ a.shown, Markup.Unmarked v.coordinate.toList)) := by
  constructor
  · intro manifest lines read declarations t free fits
    rw [Declarations.showsRows_iff json plain read rfl loud]
    exact Declarations.shows_iff rfl free fits
  · rintro r a prepared format ⟨written, saved⟩
    have settled := Audit.prepare_eq_ok_iff.1 prepared
    obtain ⟨t, drawn, -⟩ := settled.exists_table s.env.emoji
    refine ⟨t, drawn, fun free fits => ?_⟩
    rw [Audit.showsRows_iff settled loud json plain format drawn saved,
      Audit.shows_iff settled drawn free fits, List.forall_mem_cons, ← and_assoc,
      and_comm (b := Markup.Accepted t.title)]

section Scripts

def gradle : Path := ⟨"", ["build.gradle"]⟩

/-- A range of versions starts with a bracket, and no tag starts with a number. The artifact
stands between colons, but under the name of no emoji. -/
theorem shows_coordinates_iff_beside_script :
    let console := Audit.besideScript .default "api 'io.vavr:vavr:[1.0,2.0]'\n"
    let s : Session := { console with env := { console.env with emoji := Audit.ants } }
    (∃ t, ShowsRows s.env.emoji (Declarations.run s gradle) t [["io.vavr", "vavr", "[1.0,2.0]"]]) ∧
      ∃ a t, Audit.prepare s (Audit.askedRows none) = .ok a ∧ a.table = .ok t ∧
        ShowsRows s.env.emoji (Audit.run s (Audit.askedRows none)) t
          [["io.vavr:vavr:[1.0,2.0]"]] := by
  intro console s
  obtain ⟨declared, audited⟩ := shows_coordinates_iff (s := s) rfl rfl rfl
  constructor
  · have read : s.readScript gradle = .ok ["api 'io.vavr:vavr:[1.0,2.0]'"] := by decide +kernel
    exact ⟨_, (declared gradle _ read (by decide +kernel) (by decide +kernel)).2 (by decide +kernel)⟩
  · obtain ⟨a, prepared, facts⟩ := exists_of_any_toOption
      (x := Audit.prepare s (Audit.askedRows none)) (p := fun a =>
        decide (a.format = .table ∧ a.shown.map (·.coordinate) = ["io.vavr:vavr:[1.0,2.0]"]) &&
          a.table.toOption.any fun t : Console.Table =>
            decide (t.Fits s.env.emoji ∧ Markup.Accepted t.title))
      (by decide +kernel)
    obtain ⟨asked, facts⟩ := Bool.and_eq_true_iff.1 facts
    obtain ⟨format, listed⟩ := of_decide_eq_true asked
    obtain ⟨t, drawn, facts⟩ := exists_of_any_toOption facts
    obtain ⟨fits, titled⟩ := of_decide_eq_true facts
    have request := (Audit.prepare_eq_ok_iff.1 prepared).request
    have silent : a.markups s = [] := by
      rw [Audit.markups, Audit.places, request]
      rfl
    have saved : a.write s = .ok s.files := by
      rw [Audit.write, request]
      rfl
    obtain ⟨_, drawn', shows⟩ := audited _ _ prepared format ⟨_, saved⟩
    cases drawn.symm.trans drawn'
    have texts : ∀ c ∈ a.shown.map (·.coordinate),
        s.env.emoji.Free c.toList ∧ Markup.Unmarked c.toList := by
      rw [listed]
      decide +kernel
    have each v (member : v ∈ a.shown) := texts _ (List.mem_map_of_mem member)
    have rows := (shows (fun v member => (each v member).1) fits).2
      ⟨by simpa [silent] using titled, fun v member => (each v member).2⟩
    have parts : (a.shown.map fun v => [v.coordinate]) = [["io.vavr:vavr:[1.0,2.0]"]] := by
      have same := congrArg (List.map fun c => [c]) listed
      rwa [List.map_map] at same
    rw [parts] at rows
    exact ⟨a, t, prepared, drawn, rows⟩

/-- A tag in a version: the list of declarations ends well and shows the version without it. If
the tag ends a style that was never set, the list is not printed at all. -/
theorem tag_in_version_not_shown :
    let faded := Audit.besideScript .default "api 'com.acme:core:[beta]1'\n"
    let refused := Audit.besideScript .default "api 'com.acme:core:[/x]1'\n"
    (∃ d, faded.readScript gradle = .ok [d.source] ∧ Declaration.ofLines [d.source] = [d] ∧
        d.coordinate = ⟨"com.acme", "core", "[beta]1"⟩ ∧
        (Declarations.run faded gradle).ending = .exit 0 ∧
        ¬ ShowsRows faded.env.emoji (Declarations.run faded gradle) (Declarations.table gradle [d])
          [["com.acme", "core", "[beta]1"]]) ∧
      ∃ d, refused.readScript gradle = .ok [d.source] ∧ Declaration.ofLines [d.source] = [d] ∧
        d.coordinate = ⟨"com.acme", "core", "[/x]1"⟩ ∧
        (Declarations.run refused gradle).ending = .crash (.markup (.notOpen "[/x]" 0)) := by
  intro faded refused
  constructor
  · let d : Declaration := ⟨⟨"com.acme", "core", "[beta]1"⟩, 1, "api 'com.acme:core:[beta]1'", .api⟩
    have read : faded.readScript gradle = .ok [d.source] := by decide +kernel
    have declared : Declaration.ofLines [d.source] = [d] := by decide +kernel
    have ended := Declarations.ending_iff rfl rfl read declared
    refine ⟨d, read, declared, rfl, ended.2 ?_, fun shown => ?_⟩
    · refine (Table.exists_text_iff ?_ ?_).2 ?_ <;> decide +kernel
    · rw [Declarations.showsRows_iff rfl rfl read declared rfl] at shown
      have free : ∀ e ∈ [d], faded.env.emoji.Free e.coordinate.text.toList :=
        fun e _ => Emoji.free_empty e.coordinate.text.toList
      have unmarked := ((Declarations.shows_iff declared free (by decide +kernel)).1 shown).2 d
        List.mem_cons_self
      exact absurd (unmarked "[beta]1" (by simp [Declarations.parts, d])) (by decide +kernel)
  · exact ⟨⟨⟨"com.acme", "core", "[/x]1"⟩, 1, "api 'com.acme:core:[/x]1'", .api⟩, by decide +kernel⟩

end Scripts
end DependencyAudit.Command
