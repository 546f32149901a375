import DependencyAudit.Proofs.Declaration.Place
import DependencyAudit.Proofs.Report.Patch

/-!
The audit of what remains. Taking out the listed lines leaves the verdicts of the
other lines as they are, except that these move up; so there is nothing to take
out a second time. A line goes with all that is declared on it, flagged or not.
-/
namespace DependencyAudit
open Diff
variable (tables : Tables) (evidence : Option (List String)) (lines : List String)

theorem one_le_line_of_mem_audit {tables : Tables} {evidence : Option (List String)}
    {lines : List String} {v : Verdict} (h : v ∈ audit tables evidence lines) : 1 ≤ v.line := by
  obtain ⟨d, hd, rfl⟩ := List.mem_map.1 h
  rw [Verdict.line_of]
  exact Declaration.one_le_line hd

theorem ofLines_remaining_removedLines :
    let verdicts := audit tables evidence lines
    Declaration.ofLines (remaining (removedLines verdicts) lines) =
      ((Declaration.ofLines lines).filter fun d => unflaggedAt verdicts d.line).map
        (Declaration.movedUp (removedLines verdicts)) := by
  intro verdicts
  have positive : ∀ n ∈ removedLines verdicts, 1 ≤ n := by
    intro n hn
    obtain ⟨v, hv, _, rfl⟩ := mem_removedLines.1 hn
    exact one_le_line_of_mem_audit hv
  have left := Declaration.ofLines_remaining (nodup_removedLines verdicts) positive lines
  simp only [contains_removedLines, Bool.not_not] at left
  exact left

theorem audit_remaining_removedLines :
    let verdicts := audit tables evidence lines
    audit tables evidence (remaining (removedLines verdicts) lines) =
      (verdicts.filter fun v => unflaggedAt verdicts v.line).map
        (Verdict.movedUp (removedLines verdicts)) := by
  intro verdicts
  rw [audit, ofLines_remaining_removedLines, List.map_map]
  change _ = (((Declaration.ofLines lines).map (Verdict.of tables evidence)).filter _).map _
  rw [List.filter_map, List.map_map]
  have same : (fun d => unflaggedAt verdicts d.line) =
      (fun v : Verdict => unflaggedAt verdicts v.line) ∘ Verdict.of tables evidence := by
    funext d
    exact congrArg (unflaggedAt verdicts) (Verdict.line_of tables evidence d).symm
  rw [← same]
  apply List.map_congr_left
  intro d _
  exact Verdict.of_movedUp tables evidence (removedLines verdicts) d

theorem removedLines_eq_nil {verdicts : List Verdict} (h : ∀ v ∈ verdicts, v.flagged = false) :
    removedLines verdicts = [] := by
  rw [List.eq_nil_iff_forall_not_mem]
  intro n hn
  obtain ⟨v, hv, flagged, _⟩ := mem_removedLines.1 hn
  rw [h v hv] at flagged
  cases flagged

/-- A second audit finds the verdicts of the lines that were left, and suggests nothing. -/
theorem audit_remaining_fixed (name : String) :
    let verdicts := audit tables evidence lines
    let removed := (Edit.ofVerdicts verdicts).map (·.line)
    let kept := remaining removed lines
    let again := audit tables evidence kept
    again = (verdicts.filter fun v => unflaggedAt verdicts v.line).map (Verdict.movedUp removed) ∧
      (∀ v ∈ again, v.flagged = false) ∧ Edit.ofVerdicts again = [] ∧
        removalPatch kept again name = "" := by
  intro verdicts removed kept again
  have moved := audit_remaining_removedLines tables evidence lines
  have unflagged : ∀ v ∈ again, v.flagged = false := by
    intro v hv
    change v ∈ audit tables evidence (remaining (removedLines verdicts) lines) at hv
    rw [moved] at hv
    obtain ⟨w, hw, rfl⟩ := List.mem_map.1 hv
    obtain ⟨member, alone⟩ := List.mem_filter.1 hw
    have spared := List.all_eq_true.1 alone w member
    simpa [Verdict.movedUp, Verdict.moved] using spared
  have noLines := removedLines_eq_nil unflagged
  refine ⟨moved, unflagged, List.map_eq_nil_iff.1 noLines, ?_⟩
  rw [removalPatch, noLines]
  rfl

/-- An unflagged declaration goes exactly if it shares its line with a flagged one. -/
theorem declarations_of_unshared_lines_stay (name : String) :
    let verdicts := audit tables evidence lines
    let removed := (Edit.ofVerdicts verdicts).map (·.line)
    let kept := remaining removed lines
    (∀ n, n ∈ removed ↔ ∃ v ∈ verdicts, v.flagged = true ∧ v.line = n) ∧
      Declaration.ofLines kept =
        ((Declaration.ofLines lines).filter fun d => unflaggedAt verdicts d.line).map
          (Declaration.movedUp removed) ∧
      ∃ hunks, removalPatch lines verdicts name = diffText ("a/" ++ name) ("b/" ++ name) hunks ∧
        Hunk.applyAll? 0 0 hunks (lines.map endedLine) = some (kept.map endedLine) := by
  intro verdicts removed kept
  have applied := (applyAll?_removalHunks lines verdicts).1
  have left : unflagged verdicts (lines.map endedLine) = kept.map endedLine := by
    rw [← remaining_removedLines, remaining, remainingFrom_map]
    rfl
  rw [left] at applied
  exact ⟨fun n => mem_removedLines, ofLines_remaining_removedLines tables evidence lines, _,
    removalPatch_eq lines verdicts name, applied⟩

/-- A declaration that is not flagged goes with a flagged one on its line. -/
theorem unflagged_declaration_goes :
    let lines := ["implementation(\"com.google.guava:guava:33.0.0\"); " ++
      "implementation(\"org.jetbrains.kotlin:kotlin-stdlib:1.9.22\")"]
    let verdicts := audit Tables.builtIn none lines
    let removed := (Edit.ofVerdicts verdicts).map (·.line)
    (∃ v ∈ verdicts, v.flagged = false ∧ v.line ∈ removed) ∧
      Declaration.ofLines (remaining removed lines) = [] := by
  decide +kernel

end DependencyAudit
