import DependencyAudit.Proofs.Declaration.Provenance

/-!
Edits against the verdicts that they stand for. There is one edit for each flagged verdict that
no flagged verdict of the same line stands before, and they are in the order of these. Of an
audit the edits go down the script, and each has the text of its line.
-/
namespace DependencyAudit

/-- A flagged verdict with its place, and no flagged verdict of its line before it. -/
def isFirstFlagged (verdicts : List Verdict) (place : Verdict × Nat) : Bool :=
  place.1.flagged && unflaggedAt (verdicts.take place.2) place.1.line

/-- The flagged verdicts, but of each line only the first. -/
def firstFlagged (verdicts : List Verdict) : List Verdict :=
  (verdicts.zipIdx.filter (isFirstFlagged verdicts)).map (·.1)

section Edits
variable {verdicts : List Verdict}

theorem unflaggedAt_concat (before : List Verdict) (v : Verdict) (n : Int) :
    unflaggedAt (before ++ [v]) n = (unflaggedAt before n && (!v.flagged || v.line ≠ n)) := by
  simp [unflaggedAt]

/-- A line is listed exactly if a flagged verdict bears its number so far; this stays so when a
verdict is passed, whether it is listed or not. -/
theorem ofVerdictsAfter_eq {listed : List Int} (before : List Verdict)
    (known : ∀ n, listed.contains n = !unflaggedAt before n) (verdicts : List Verdict) :
    Edit.ofVerdictsAfter listed verdicts =
      ((verdicts.zipIdx before.length).filter (isFirstFlagged (before ++ verdicts))).map
        fun place => Edit.ofVerdict place.1 := by
  induction verdicts generalizing before listed with
  | nil => rfl
  | cons v rest ih =>
      have here : isFirstFlagged (before ++ v :: rest) (v, before.length) =
          (v.flagged && !listed.contains v.line) := by
        rw [isFirstFlagged, List.take_left' rfl, known, Bool.not_not]
      have regroup : before ++ v :: rest = before ++ [v] ++ rest := by simp
      have longer : before.length + 1 = (before ++ [v]).length := by simp
      rw [Edit.ofVerdictsAfter, List.zipIdx_cons, List.filter_cons, here, regroup, longer]
      split
      case isTrue new =>
        have flagged : v.flagged = true := (Bool.and_eq_true_iff.1 new).1
        rw [List.map_cons, ih _]
        intro n
        rw [List.contains_cons, known, unflaggedAt_concat, flagged]
        obtain rfl | other := eq_or_ne v.line n
        · simp
        · simp [other, other.symm]
      case isFalse old =>
        refine ih _ fun n => ?_
        rw [known, unflaggedAt_concat]
        obtain rfl | other := eq_or_ne v.line n
        · -- a flagged verdict is passed over only on a line that is listed
          rw [known, Bool.not_not] at old
          cases free : unflaggedAt before v.line with
          | false => rfl
          | true => simpa [free] using old
        · simp [other]

theorem ofVerdicts_eq (verdicts : List Verdict) :
    Edit.ofVerdicts verdicts = (firstFlagged verdicts).map Edit.ofVerdict := by
  rw [Edit.ofVerdicts, ofVerdictsAfter_eq [] fun n => rfl, firstFlagged, List.map_map]
  rfl

theorem firstFlagged_sublist (verdicts : List Verdict) :
    (firstFlagged verdicts).Sublist verdicts := by
  have kept : (firstFlagged verdicts).Sublist (verdicts.zipIdx.map (·.1)) :=
    List.filter_sublist.map _
  rwa [List.zipIdx_map_fst] at kept

theorem exists_of_mem_ofVerdicts {e : Edit} (h : e ∈ Edit.ofVerdicts verdicts) :
    ∃ v ∈ verdicts, v.flagged = true ∧ e = Edit.ofVerdict v := by
  rw [ofVerdicts_eq] at h
  obtain ⟨v, first, rfl⟩ := List.mem_map.1 h
  obtain ⟨⟨_, i⟩, kept, rfl⟩ := List.mem_map.1 first
  obtain ⟨member, flagged⟩ := List.mem_filter.1 kept
  exact ⟨_, List.fst_mem_of_mem_zipIdx member, (Bool.and_eq_true_iff.1 flagged).1, rfl⟩

end Edits

section Audits
variable {tables : Tables} {evidence : Option (List String)} {lines : List String}

theorem pairwise_line_audit (tables : Tables) (evidence : Option (List String))
    (lines : List String) :
    (audit tables evidence lines).Pairwise fun v w => v.line ≤ w.line := by
  rw [audit, List.pairwise_map]
  simp only [Verdict.line_of]
  exact Declaration.pairwise_ofLinesFrom 1 lines

theorem readFrom_of_mem_audit {v : Verdict} (h : v ∈ audit tables evidence lines) :
    v.declaration.ReadFrom lines := by
  obtain ⟨d, hd, rfl⟩ := List.mem_map.1 h
  rw [Verdict.declaration_of]
  exact Declaration.readFrom_of_mem_ofLines hd

theorem pairwise_line_edits (tables : Tables) (evidence : Option (List String))
    (lines : List String) :
    (removedLines (audit tables evidence lines)).Pairwise (· < ·) := by
  have ordered : (removedLines (audit tables evidence lines)).Pairwise (· ≤ ·) := by
    rw [removedLines, ofVerdicts_eq, List.map_map, List.pairwise_map]
    exact (pairwise_line_audit tables evidence lines).sublist (firstFlagged_sublist _)
  exact ordered.imp₂ (fun n m le ne => Int.lt_iff_le_and_ne.2 ⟨le, ne⟩) (nodup_removedLines _)

end Audits

/-- Each line with something flagged on it has one edit, that of its first flagged verdict. The
edits of an audit go down the script, and each has the text of a line of it. -/
theorem Edit.ofVerdicts_covers :
    (∀ verdicts : List Verdict,
      ((Edit.ofVerdicts verdicts).map (·.line)).Nodup ∧
        (∀ n, n ∈ (Edit.ofVerdicts verdicts).map (·.line) ↔
          ∃ v ∈ verdicts, v.flagged = true ∧ v.line = n) ∧
        Edit.ofVerdicts verdicts = (firstFlagged verdicts).map fun v =>
          ⟨v.line, v.declaration.source, v.coordinate, v.size⟩) ∧
      ∀ (tables : Tables) (evidence : Option (List String)) (lines : List String),
        let edits := Edit.ofVerdicts (audit tables evidence lines)
        (edits.map (·.line)).Pairwise (· < ·) ∧
          ∀ e ∈ edits, 1 ≤ e.line ∧ e.line ≤ lines.length ∧
            ∃ line, lines[(e.line - 1).toNat]? = some line ∧
              e.text = String.ofList (Text.trim line.toList) := by
  refine ⟨fun verdicts => ⟨nodup_removedLines verdicts, fun n => mem_removedLines,
    ofVerdicts_eq verdicts⟩, fun tables evidence lines => ?_⟩
  intro edits
  refine ⟨pairwise_line_edits tables evidence lines, fun e member => ?_⟩
  obtain ⟨v, hv, -, rfl⟩ := exists_of_mem_ofVerdicts member
  have read := readFrom_of_mem_audit hv
  obtain ⟨line, found, source, -⟩ := read.line
  exact ⟨read.within.1, read.within.2, line, found, source⟩

/-- Of three declarations on one line the second is the first that is flagged. -/
theorem Edit.ofVerdicts_covers_of_shared_line :
    let lines := ["", "  api('g:b:1'); api('g:guava:1'); api('g:vavr:1')"]
    let edits := Edit.ofVerdicts (audit Tables.builtIn none lines)
    edits.map (fun e => (e.line, e.coordinate)) = [(2, "g:guava:1")] ∧
      ∃ e ∈ edits, e.line = 2 ∧
        ∃ line, lines[(e.line - 1).toNat]? = some line ∧
          e.text = String.ofList (Text.trim line.toList) := by
  intro lines edits
  have listed : edits.map (fun e => (e.line, e.coordinate)) = [(2, "g:guava:1")] := by
    decide +kernel
  have place : (2, "g:guava:1") ∈ edits.map fun e => (e.line, e.coordinate) := by
    rw [listed]
    exact List.mem_cons_self
  obtain ⟨e, member, same⟩ := List.mem_map.1 place
  have covered := (Edit.ofVerdicts_covers.2 Tables.builtIn none lines).2 e member
  exact ⟨listed, e, member, congrArg Prod.fst same, covered.2.2⟩

end DependencyAudit
