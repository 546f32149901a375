import DependencyAudit.Proofs.Command.Document
import DependencyAudit.Proofs.Command.PlainRow

/-!
The table of plain output. It starts with a line for each row that it shows, below a heading,
and the totals follow: so it can be read, and what is read is what a document reports of the
same audit, but for rows that are not to be shown and sequences that plain output leaves out.
-/
namespace DependencyAudit.Command
open Text

/-- The rows of a report, and how many there are of them and of the flagged ones among all. -/
structure Overview where
  rows : List Row
  total : Nat
  flagged : Nat
deriving DecidableEq

namespace Overview

section Reading

/-- The rows that lines begin with, and the other lines. -/
def takeRows : List (List Char) → List Row × List (List Char)
  | [] => ([], [])
  | line :: rest =>
    match Row.ofLine? line with
    | some row => (row :: (takeRows rest).1, (takeRows rest).2)
    | none => ([], line :: rest)

/-- The count in a line that has it behind a name. -/
def total? (name : String) (line : List Char) : Option Nat :=
  match (splitAtEach '\t' line).map String.ofList with
  | [key, count] => if key = name then Row.count? count else none
  | _ => none

def ofLines? : List (List Char) → Option Overview
  | [] => none
  | heading :: lines =>
    if (splitAtEach '\t' heading).map String.ofList = Audit.plainHead then
      match takeRows lines with
      | (rows, total :: flagged :: _) => do
        return ⟨rows, ← total? "total" total, ← total? "flagged" flagged⟩
      | _ => none
    else none

/-- The overview that a text starts with: a heading, rows, and the two totals. -/
def ofText? (text : List Char) : Option Overview := ofLines? (splitAtEach '\n' text)

/-- The overview of a document. -/
def ofTree? (t : Tree) : Option Overview := do
  let .list results ← t.at? ["results"] | none
  let rows ← results.mapM Row.ofTree?
  let total ← Row.natural? (← t.at? ["summary", "total"])
  let flagged ← Row.natural? (← t.at? ["summary", "flagged"])
  return ⟨rows, total, flagged⟩

end Reading

/-- The rows that are to be shown; the totals stay. -/
def shown (showAll : Bool) (o : Overview) : Overview :=
  if showAll then o else { o with rows := o.rows.filter (·.flagged) }

def echoed (o : Overview) : Overview := { o with rows := o.rows.map Row.echoed }

theorem echoed_eq_self_iff {o : Overview} :
    o.echoed = o ↔ ∀ row ∈ o.rows, ¬ Console.HasSequence row.coordinate.toList := by
  have each : o.rows.map Row.echoed = o.rows ↔ ∀ row ∈ o.rows, row.echoed = row := by
    have pointwise := List.map_inj_left (f := Row.echoed) (g := id) (l := o.rows)
    rwa [List.map_id] at pointwise
  simp only [← Row.echoed_eq_self_iff]
  rw [← each]
  exact ⟨congrArg Overview.rows, fun same => by rw [echoed, same]⟩

section Lines
variable {lines : List (List Char)} {rows : List Row} {n m : Nat} {name : String}

theorem takeRows_append {line : List Char} (read : lines.map Row.ofLine? = rows.map some)
    (stop : Row.ofLine? line = none) (rest : List (List Char)) :
    takeRows (lines ++ line :: rest) = (rows, line :: rest) := by
  induction lines generalizing rows with
  | nil =>
      cases rows with
      | nil => simp [takeRows, stop]
      | cons row rows => cases read
  | cons first lines ih =>
      cases rows with
      | nil => cases read
      | cons row rows =>
          obtain ⟨here, behind⟩ := List.cons.inj read
          rw [List.cons_append, takeRows, here, ih behind]

theorem ofLine?_of_total? {line : List Char} (h : total? name line = some n) :
    Row.ofLine? line = none := by
  revert h
  rw [total?, Row.ofLine?]
  split
  case h_1 cells =>
    rw [cells]
    exact fun _ => rfl
  case h_2 =>
    intro h
    cases h

theorem total?_row (calm : Calm name.toList) (n : Nat) :
    '\n' ∉ Console.row [name, toString n] ∧
      total? name (Console.row [name, toString n]) = some n := by
  have digits : toString n = String.ofList (natText n) := rfl
  have all : ∀ cell ∈ [name, toString n], Calm cell.toList := by
    refine List.forall_mem_cons.2 ⟨calm, List.forall_mem_singleton.2 ?_⟩
    rw [digits, String.toList_ofList]
    exact calm_natText n
  refine ⟨not_mem_row_of_calm all, ?_⟩
  rw [total?, splitAtEach_row_of_calm (List.cons_ne_nil _ _) all]
  simp only [if_true, digits, Row.count?_natText]

theorem ofLines?_eq {heading total flagged : List Char} {rest : List (List Char)}
    (head : (splitAtEach '\t' heading).map String.ofList = Audit.plainHead)
    (read : lines.map Row.ofLine? = rows.map some) (all : total? "total" total = some m)
    (counted : total? "flagged" flagged = some n) :
    ofLines? (heading :: (lines ++ total :: flagged :: rest)) = some ⟨rows, m, n⟩ := by
  rw [ofLines?, if_pos head, takeRows_append read (ofLine?_of_total? all)]
  simp only [all, counted]
  rfl

end Lines
end Overview

namespace Audit
variable {s s' : Session} {r r' : AuditRequest} {a : Audit}

/-- Each verdict is printed as a line, and its row is read from there. -/
theorem exists_printed_rows {verdicts : List Verdict} (h : ∀ v ∈ verdicts, Showable v) :
    ∃ lines : List (List Char), (∀ line ∈ lines, '\n' ∉ line) ∧
      lines.map Row.ofLine? = ((verdicts.map Row.of).map Row.echoed).map some ∧
      ∃ text, printed (verdicts.map fun v => (plainCells v).map Console.echoCells) = (text, none) ∧
        text.toList = (lines.map (· ++ ['\n'])).flatten := by
  induction verdicts with
  | nil => exact ⟨[], nofun, rfl, "", rfl, rfl⟩
  | cons v verdicts ih =>
      obtain ⟨first, others⟩ := List.forall_mem_cons.1 h
      obtain ⟨lines, ended, read, text, rest, same⟩ := ih others
      obtain ⟨size, calm, cells⟩ := first.exists_plainCells
      have visible : ∀ c ∈ (Row.of v).coordinate.toList, isBlank c = false := first.visible
      obtain ⟨line, row⟩ := Row.ofLine?_row visible calm
      refine ⟨_ :: lines, List.forall_mem_cons.2 ⟨line, ended⟩, ?_,
        Console.echoCells ((Row.of v).cells size) ++ text, ?_, ?_⟩
      · rw [List.map_cons, row, read]
        rfl
      · rw [List.map_cons, cells, Except.map, printed, rest]
      · rw [String.toList_append, Console.toList_echoCells, same]
        rfl

theorem mem_of_mem_shown {v : Verdict} (h : v ∈ a.shown) : v ∈ a.verdicts := by
  rw [shown] at h
  split at h
  case isTrue => exact h
  case isFalse => exact (List.mem_filter.1 h).1

theorem Prepared.showable (prepared : Prepared s r a) : ∀ v ∈ a.verdicts, Showable v := by
  rw [prepared.verdicts]
  exact fun v => showable_of_mem_audit

/-- The lines of the totals. -/
def totalLine (a : Audit) : List Char := Console.row ["total", toString a.summary.total]

def flaggedLine (a : Audit) : List Char := Console.row ["flagged", toString a.summary.flagged]

/-- Plain output is lines for the heading, the rows and the totals, and other lines. -/
theorem Prepared.exists_plainOutput (prepared : Prepared s r a) :
    ∃ lines rest, lines.map Row.ofLine? = ((a.shown.map Row.of).map Row.echoed).map some ∧
      (∀ line ∈ lines, '\n' ∉ line) ∧ (printed a.plainPieces).1.toList =
        ((Console.row plainHead :: (lines ++ [a.totalLine, a.flaggedLine])).map
          (· ++ ['\n'])).flatten ++ rest := by
  obtain ⟨lines, ended, read, text, rows, same⟩ :=
    exists_printed_rows fun v hv => prepared.showable v (mem_of_mem_shown hv)
  let table := a.shown.map fun v => (plainCells v).map Console.echoCells
  obtain ⟨after, pieces⟩ : ∃ after, a.plainPieces = (.ok (Console.echoCells plainHead) :: table) ++
      .ok (Console.echoCells ["total", toString a.summary.total]) ::
        .ok (Console.echoCells ["flagged", toString a.summary.flagged]) :: after :=
    ⟨_, by rw [plainPieces, List.append_assoc]; rfl⟩
  have first : printed (.ok (Console.echoCells plainHead) :: table)
      = (Console.echoCells plainHead ++ text, none) := by
    rw [printed, rows]
  refine ⟨lines, (printed after).1.toList, read, ended, ?_⟩
  rw [pieces, printed_append (by rw [first]), first]
  simp [printed, same, Console.toList_echoCells, totalLine, flaggedLine]

/-- What is read of plain output. -/
theorem Prepared.ofText?_plainPieces (prepared : Prepared s r a) :
    Overview.ofText? (printed a.plainPieces).1.toList =
      some ⟨(a.shown.map Row.of).map Row.echoed, a.summary.total, a.summary.flagged⟩ := by
  obtain ⟨lines, rest, read, ended, output⟩ := prepared.exists_plainOutput
  have ⟨totalEnded, total⟩ : _ ∧ Overview.total? "total" a.totalLine = _ :=
    Overview.total?_row (by decide) a.summary.total
  have ⟨flaggedEnded, flagged⟩ : _ ∧ Overview.total? "flagged" a.flaggedLine = _ :=
    Overview.total?_row (by decide) a.summary.flagged
  have heading : ∀ cell ∈ plainHead, Calm cell.toList := by decide
  have below : ∀ line ∈ Console.row plainHead :: (lines ++ [a.totalLine, a.flaggedLine]),
      '\n' ∉ line := by
    refine List.forall_mem_cons.2 ⟨not_mem_row_of_calm heading, ?_⟩
    refine List.forall_mem_append.2 ⟨ended, ?_⟩
    exact List.forall_mem_cons.2 ⟨totalEnded, List.forall_mem_singleton.2 flaggedEnded⟩
  rw [Overview.ofText?, output, splitAtEach_ended below, List.cons_append, List.append_assoc]
  exact Overview.ofLines?_eq (splitAtEach_row_of_calm (List.cons_ne_nil _ _) heading) read total
    flagged

theorem mapM_ofTree? {verdicts : List Verdict} (h : ∀ v ∈ verdicts, Showable v) :
    (verdicts.map Verdict.toTree).mapM Row.ofTree? = some (verdicts.map Row.of) := by
  induction verdicts with
  | nil => rfl
  | cons v verdicts ih =>
      obtain ⟨first, others⟩ := List.forall_mem_cons.1 h
      rw [List.map_cons, List.mapM_cons, first.ofTree?_toTree, ih others]
      rfl

/-- The document of an audit has the rows of all verdicts. -/
theorem Prepared.ofTree?_entries (prepared : Prepared s r a) :
    Overview.ofTree? (.table a.entries) =
      some ⟨a.verdicts.map Row.of, a.summary.total, a.summary.flagged⟩ := by
  have natural (n : Nat) : Row.natural? (.nat n) = some n := rfl
  have results : (Tree.table a.entries).at? ["results"]
      = some (.list (a.verdicts.map Verdict.toTree)) := rfl
  have total : (Tree.table a.entries).at? ["summary", "total"] = some (.nat a.summary.total) := rfl
  have flagged : (Tree.table a.entries).at? ["summary", "flagged"]
      = some (.nat a.summary.flagged) := rfl
  simp [Overview.ofTree?, results, total, flagged, natural, mapM_ofTree? prepared.showable]

theorem shown_overview (a : Audit) (m n : Nat) :
    Overview.shown a.showAll ⟨a.verdicts.map Row.of, m, n⟩ = ⟨a.shown.map Row.of, m, n⟩ := by
  rw [Overview.shown, shown]
  cases a.showAll with
  | true => rfl
  | false =>
      simp only [Bool.false_eq_true, if_false, List.filter_map]
      rfl

theorem output_of_plain (prepared : Prepared s r a) (plain : s.general.plain = true)
    (silent : s.general.verbose = false) (report : a.isDocument s = false)
    (done : (run s r).ending = .exit 0) : (run s r).output = (printed a.plainPieces).1 := by
  rw [run_of_prepared prepared, log_of_silent silent, pieces_eq report, if_pos plain] at done ⊢
  obtain ⟨-, -, -, output⟩ := writing_ended done
  rw [output]
  exact String.empty_append

/-- Plain output of an audit that ends well is a table, and what is read of it is what a document
reports of the same audit, with the flagged rows alone if no others are to be shown, and the same
totals either way. All of a coordinate is read but for the colour and cursor sequences in it, so
table and document agree exactly if no coordinate that is shown has one. -/
theorem ofText?_plain_iff (prepared : prepare s r = .ok a) (plain : s.general.plain = true)
    (silent : s.general.verbose = false) (report : a.isDocument s = false)
    (done : (run s r).ending = .exit 0) :
    ∃ o : Overview, (∃ t, a.document = .ok t ∧ Overview.ofTree? t = some o) ∧
      (∀ s' r', SameTask s s' r r' → AsksDocument s' r' → (run s' r').ending = .exit 0 →
        ∃ t, Json.read (run s' r').output.toList = .ok t ∧ Overview.ofTree? t = some o) ∧
      Overview.ofText? (run s r).output.toList = some (o.shown a.showAll).echoed ∧
      (Overview.ofText? (run s r).output.toList = some (o.shown a.showAll) ↔
        ∀ row ∈ (o.shown a.showAll).rows, ¬ Console.HasSequence row.coordinate.toList) := by
  have settled := prepare_eq_ok_iff.1 prepared
  have read := settled.ofText?_plainPieces
  rw [← output_of_plain settled plain silent report done] at read
  have same := a.shown_overview a.summary.total a.summary.flagged
  refine ⟨_, ⟨_, settled.document, settled.ofTree?_entries⟩,
    fun s' r' task asked done' => ?_, ?_, ?_⟩
  · exact ⟨_, (task.leavesDocument asked settled done').output, settled.ofTree?_entries⟩
  · rw [read, same]
    rfl
  · rw [← Overview.echoed_eq_self_iff, read, same, Option.some.injEq]
    rfl

section Scripts

def plainBeside (script : String) : Session :=
  besideScript { General.default with plain := true } script

def jsonBeside (script : String) : Session :=
  besideScript { General.default with json := true } script

def askedRows (showAll : Option Bool) : AuditRequest :=
  { askedPatch with patch := false, showAll }

theorem sameTask_beside (script : String) (r : AuditRequest) :
    SameTask (plainBeside script) (jsonBeside script) r r :=
  ⟨rfl, rfl, fun _ _ => rfl, rfl, rfl, rfl, rfl, rfl, rfl⟩

/-- Of two declarations the flagged one is shown, and both are counted. -/
theorem ofText?_plain_iff_beside_script :
    let script := "api 'io.vavr:vavr:1'\napi 'org.slf4j:slf4j-api:2.0.9'\n"
    let r := askedRows (some false)
    ∃ t o, Json.read (run (jsonBeside script) r).output.toList = .ok t ∧
      Overview.ofTree? t = some o ∧ o.total = 2 ∧ (o.shown false).rows.length = 1 ∧
      Overview.ofText? (run (plainBeside script) r).output.toList = some (o.shown false) := by
  intro script r
  obtain ⟨a, prepared, done, facts⟩ := exists_ended (s := plainBeside script) (r := r)
    (p := fun a => decide (a.isDocument (plainBeside script) = false ∧ a.showAll = false ∧
      a.summary.total = 2 ∧ a.shown.length = 1 ∧
      ∀ v ∈ a.shown, '\x1b' ∉ v.coordinate.toList)) (by decide +kernel)
  obtain ⟨_, _, done', -⟩ :=
    exists_ended (s := jsonBeside script) (r := r) (p := fun _ => true) (by decide +kernel)
  obtain ⟨report, counted, total, one, plain⟩ := of_decide_eq_true facts
  have task := sameTask_beside script r
  have asked : AsksDocument (jsonBeside script) r := ⟨rfl, rfl, .inl rfl⟩
  obtain ⟨o, ⟨_, document, rows⟩, reported, -, agrees⟩ :=
    ofText?_plain_iff prepared rfl rfl report done
  have settled := prepare_eq_ok_iff.1 prepared
  clear_value script r
  cases settled.document.symm.trans document
  cases settled.ofTree?_entries.symm.trans rows
  obtain ⟨t, read, same⟩ := reported _ _ task asked done'
  rw [counted] at agrees
  have listed := a.shown_overview a.summary.total a.summary.flagged
  rw [counted] at listed
  refine ⟨t, _, read, same, total, ?_, agrees.2 ?_⟩
  · rw [listed, List.length_map, one]
  · rw [listed]
    intro row hrow
    obtain ⟨v, hv, rfl⟩ := List.mem_map.1 hrow
    rintro ⟨_, behind, _⟩
    exact plain v hv (behind.subset List.mem_cons_self)

/-- A colour sequence in a version: the document has it, and the table does not. -/
theorem ofText?_plain_of_sequence :
    let script := "api 'io.vavr:vavr:1\x1b[31m'\n"
    let r := askedRows none
    (run (plainBeside script) r).ending = .exit 0 ∧ (run (jsonBeside script) r).ending = .exit 0 ∧
      ∃ t o o', Json.read (run (jsonBeside script) r).output.toList = .ok t ∧
        Overview.ofTree? t = some o ∧
        Overview.ofText? (run (plainBeside script) r).output.toList = some o' ∧
        o'.rows.map (·.coordinate) ≠ o.rows.map (·.coordinate) := by
  intro script r
  obtain ⟨a, prepared, done, facts⟩ := exists_ended (s := plainBeside script) (r := r)
    (p := fun a => decide (a.isDocument (plainBeside script) = false ∧ a.showAll = true ∧
      ∃ v ∈ a.verdicts, Console.echoed v.coordinate ≠ v.coordinate)) (by decide +kernel)
  obtain ⟨_, _, done', -⟩ :=
    exists_ended (s := jsonBeside script) (r := r) (p := fun _ => true) (by decide +kernel)
  obtain ⟨report, all, v, hv, lost⟩ := of_decide_eq_true facts
  have task := sameTask_beside script r
  have asked : AsksDocument (jsonBeside script) r := ⟨rfl, rfl, .inl rfl⟩
  have plain : (plainBeside script).general.plain = true := rfl
  have silent : (plainBeside script).general.verbose = false := rfl
  have settled := prepare_eq_ok_iff.1 prepared
  clear_value script r
  have read := settled.ofText?_plainPieces
  rw [← output_of_plain settled plain silent report done, shown, if_pos all] at read
  refine ⟨done, done', _, _, _, (task.leavesDocument asked settled done').output,
    settled.ofTree?_entries, read, fun same => ?_⟩
  rw [List.map_map, List.map_map, List.map_map] at same
  exact lost (List.map_inj_left.1 same v hv)

end Scripts
end Audit
end DependencyAudit.Command
