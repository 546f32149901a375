import DependencyAudit.Proofs.Report.Page

/-!
Two pages of one report, with all of its declarations and with the flagged ones. They differ in
the table alone: the narrowed one keeps the rows of flagged verdicts as they are. Totals in front
of the table and the removals behind it are those of all verdicts in both.
-/
namespace DependencyAudit.Markdown

/-- The table of a page from the row of each verdict. -/
def tableText (r : Report) (flaggedOnly : Bool) (line : Verdict → String) : String :=
  if r.verdicts.isEmpty then "No dependency declarations found."
  else if (tabled r flaggedOnly).isEmpty then "No declarations flagged for removal."
  else lines (row (header r.mode) :: ruler (columns r.mode) :: (tabled r flaggedOnly).map line)

/-- The part of a page behind its table. -/
def removalsText (edits : List Edit) : String :=
  "\n\n" ++ removalsTitle ++ "\n\n"
    ++ (if edits.isEmpty then "Nothing to remove."
      else lines (edits.map removal))
    ++ "\n"

section Narrowed
variable {r : Report} {summary : Summary} {counts : List String} {line : Verdict → String}

theorem rows_tabled (each : ∀ v ∈ r.verdicts, (cells r.mode v).map row = .ok (line v))
    (flaggedOnly : Bool) : rows r.mode (tabled r flaggedOnly) =
      .ok (row (header r.mode) :: ruler (columns r.mode) :: (tabled r flaggedOnly).map line) := by
  rw [rows, mapM_eq_map fun v member => each v (mem_of_mem_tabled member), length_header]
  rfl

theorem markdown_eq (summed : Summary.ofVerdicts r.verdicts = .ok summary)
    (told : totals summary = .ok counts) (nonempty : counts ≠ [])
    (each : ∀ v ∈ r.verdicts, (cells r.mode v).map row = .ok (line v)) (flaggedOnly : Bool) :
    r.markdown flaggedOnly = .ok (String.ofList (ended (headLines r counts ++
      [declarationsTitle, ""])) ++ tableText r flaggedOnly line
        ++ removalsText (Edit.ofVerdicts r.verdicts)) := by
  have drawn := rows_tabled each flaggedOnly
  rw [tabled] at drawn
  simp only [Report.markdown, summed, told, drawn, Except.mapError, bind, Except.bind, pure,
    Except.pure, tableText, tabled]
  refine congrArg Except.ok (String.toList_inj.1 ?_)
  simp only [toString, String.toList_append, String.toList_ofList, ended_append, headLines,
    toList_source, ← toList_lines nonempty, removalsText]
  simp [ended, declarationsTitle, removalsTitle]

end Narrowed

/-- The pages of a report with and without the verdicts that are not flagged: the same totals in
front, which are of all verdicts, a table with the same row for a verdict, and the same removals
behind it, one for each edit of all verdicts. -/
theorem narrows_table (r : Report)
    (audited : ∀ v ∈ r.verdicts, ∃ tables evidence lines, v ∈ audit tables evidence lines) :
    ∃ summary counts line, Summary.ofVerdicts r.verdicts = .ok summary ∧
      totals summary = .ok counts ∧
      (∀ v ∈ r.verdicts, (cells r.mode v).map row = .ok (line v)) ∧
      ∀ flaggedOnly, r.markdown flaggedOnly = .ok (String.ofList (ended (headLines r counts ++
        [declarationsTitle, ""])) ++ tableText r flaggedOnly line
          ++ removalsText (Edit.ofVerdicts r.verdicts)) := by
  have showable : ∀ v ∈ r.verdicts, Command.Showable v := by
    intro v member
    obtain ⟨tables, evidence, lines, member⟩ := audited v member
    exact Command.showable_of_mem_audit member
  obtain ⟨summary, summed⟩ := exists_ofVerdicts fun v member => (showable v member).size
  obtain ⟨first, counts, told, -⟩ := exists_totals summary
  have drawn : ∀ v : Verdict, ∃ line, v ∈ r.verdicts → (cells r.mode v).map row = .ok line := by
    intro v
    by_cases member : v ∈ r.verdicts
    · obtain ⟨line, shown, -⟩ := exists_row (showable v member) r.mode
      exact ⟨line, fun _ => shown⟩
    · exact ⟨"", fun other => absurd other member⟩
  choose line each using drawn
  exact ⟨summary, first :: counts, line, summed, told, each,
    markdown_eq summed told (List.cons_ne_nil _ _) each⟩

/-- Of two declarations the first is flagged. -/
theorem narrows_table_of_one_flagged :
    let verdicts := audit Tables.builtIn none ["api 'g:guava:1'", "api 'g:b:1'"]
    let r : Report := ⟨"build.gradle", .heuristic, none, verdicts⟩
    ∃ front back guava b,
      r.markdown false = .ok (front ++ lines [row (header .heuristic), ruler 6, guava, b] ++ back) ∧
        r.markdown true = .ok (front ++ lines [row (header .heuristic), ruler 6, guava] ++ back) := by
  intro verdicts r
  obtain ⟨summary, counts, line, -, -, -, pages⟩ :=
    narrows_table r fun v member => ⟨_, _, _, member⟩
  have flags : verdicts.map (·.flagged) = [true, false] := by decide +kernel
  obtain ⟨v, w, read⟩ : ∃ v w, verdicts = [v, w] := List.length_eq_two.1 (by
    rw [← List.length_map, flags]
    rfl)
  obtain ⟨flagged, kept⟩ : v.flagged = true ∧ w.flagged = false := by simpa [read] using flags
  have all : tableText r false line =
      lines [row (header .heuristic), ruler 6, line v, line w] := by
    simp [tableText, tabled, r, read, columns]
  have flaggedOnly : tableText r true line = lines [row (header .heuristic), ruler 6, line v] := by
    simp [tableText, tabled, r, read, columns, flagged, kept]
  have whole := pages false
  have narrowed := pages true
  rw [all] at whole
  rw [flaggedOnly] at narrowed
  exact ⟨_, _, line v, line w, whole, narrowed⟩

end DependencyAudit.Markdown
