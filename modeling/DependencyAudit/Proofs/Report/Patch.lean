import DependencyAudit.Verdict.Classify
import DependencyAudit.Proofs.Report.Removal
import DependencyAudit.Proofs.Diff.Deletion
import DependencyAudit.Proofs.Diff.Reading
import Mathlib.Data.List.DropRight

/-!
The removal patch as a text. Read back and applied strictly it takes the old
lines to the unflagged ones, and turned round it leads back. Nothing is assumed
of the verdicts: they may come in any order and name lines that do not exist.
-/
namespace DependencyAudit
open Diff

section Lines

theorem toList_endedLine (line : String) :
    (endedLine line).toList = line.toList.rdropWhile isLineBreak ++ ['\n'] := by
  rw [endedLine, String.toList_append, String.toList_ofList]
  rfl

theorem fed_endedLine {line : String} (whole : '\n' ∉ line.toList.rdropWhile isLineBreak) :
    Fed (endedLine line).toList :=
  ⟨_, toList_endedLine line, whole⟩

theorem endedLine_eq {line : String} (plain : ∀ c ∈ line.toList, isLineBreak c = false) :
    endedLine line = line ++ "\n" := by
  have same : line.toList.rdropWhile isLineBreak = line.toList := by
    rw [List.rdropWhile_eq_self_iff]
    intro ne
    simpa using plain _ (List.getLast_mem ne)
  apply String.toList_inj.1
  rw [toList_endedLine, same, String.toList_append]
  rfl

end Lines

section Patch
variable (lines : List String) (verdicts : List Verdict) (name : String)

def removalHunks : List (Hunk String) :=
  let old := lines.map endedLine
  Hunk.ofScript (Script.ofLists old (unflagged verdicts old))

theorem ofScript_self (old : List String) : Hunk.ofScript (Script.ofLists old old) = [] :=
  Hunk.ofScript_eq_nil fun _ h => Script.isChange_of_mem_between_self h

theorem unflagged_sublist {α : Type} (lines : List α) :
    (unflagged verdicts lines).Sublist lines := by
  have parts := (List.filter_sublist (l := lines.zipIdx 1)
    (p := fun line => unflaggedAt verdicts line.2)).map (·.1)
  rwa [List.zipIdx_map_fst] at parts

theorem unflagged_eq_self_iff {α : Type} (lines : List α) :
    unflagged verdicts lines = lines ↔
      ∀ v ∈ verdicts, v.flagged = true → ¬ (1 ≤ v.line ∧ v.line ≤ lines.length) := by
  rw [← remaining_removedLines, remaining]
  constructor
  · rintro same v hv flagged ⟨low, high⟩
    have within : 1 ≤ v.line ∧ v.line < 1 + (lines.length : Int) := ⟨low, by omega⟩
    have shorter := length_remainingFrom_lt (mem_removedLines.2 ⟨v, hv, flagged, rfl⟩) within
    rw [same] at shorter
    exact Nat.lt_irrefl _ shorter
  · intro outside
    apply remainingFrom_eq_self
    intro n hn within
    obtain ⟨v, hv, flagged, rfl⟩ := mem_removedLines.1 hn
    exact outside v hv flagged ⟨within.1, by omega⟩

/-- The patch is the text of these hunks, also where nothing is flagged. -/
theorem removalPatch_eq :
    removalPatch lines verdicts name =
      diffText ("a/" ++ name) ("b/" ++ name) (removalHunks lines verdicts) := by
  simp only [removalPatch, remaining_removedLines]
  split
  case isTrue none =>
    have untouched : unflagged verdicts (lines.map endedLine) = lines.map endedLine := by
      rw [← remaining_removedLines, List.isEmpty_iff.1 none, remaining]
      exact remainingFrom_eq_self fun _ h => absurd h List.not_mem_nil
    rw [removalHunks, untouched, ofScript_self]
    rfl
  case isFalse => exact unified_eq _ _ _ _

/-- Applied strictly, the hunks leave the unflagged lines, and back. -/
theorem applyAll?_removalHunks :
    let old := lines.map endedLine
    let new := unflagged verdicts old
    Hunk.applyAll? 0 0 (removalHunks lines verdicts) old = some new ∧
      Hunk.applyAll? 0 0 ((removalHunks lines verdicts).map Hunk.reverse) new = some old := by
  intro old new
  have forward := Hunk.applyAll?_ofScript (Script.ofLists old new)
  have backward := Hunk.applyAll?_reverse_ofScript (Script.ofLists old new)
  have oldView : Script.old (Script.ofLists old new) = old := Script.old_between _ old new
  have newView : Script.new (Script.ofLists old new) = new := Script.new_between _ old new
  rw [oldView, newView] at forward backward
  exact ⟨forward, backward⟩

theorem removalHunks_eq_nil_iff :
    removalHunks lines verdicts = [] ↔
      ∀ v ∈ verdicts, v.flagged = true → ¬ (1 ≤ v.line ∧ v.line ≤ lines.length) := by
  have outside := unflagged_eq_self_iff verdicts (lines.map endedLine)
  rw [List.length_map] at outside
  rw [← outside]
  constructor
  · intro empty
    have applied := (applyAll?_removalHunks lines verdicts).1
    rw [empty] at applied
    exact (Option.some.inj applied).symm
  · intro same
    rw [removalHunks, same]
    exact ofScript_self _

theorem fed_removalHunks (whole : ∀ line ∈ lines, '\n' ∉ line.toList.rdropWhile isLineBreak) :
    ∀ h ∈ removalHunks lines verdicts, ∀ step ∈ h.steps, Fed step.text.toList := by
  have fedOld : ∀ line ∈ lines.map endedLine, Fed line.toList := by
    intro line hline
    obtain ⟨source, hsource, rfl⟩ := List.mem_map.1 hline
    exact fed_endedLine (whole source hsource)
  exact fed_ofLists fedOld fun line hline =>
    fedOld line ((unflagged_sublist verdicts (lines.map endedLine)).subset hline)

/-- Read and applied to the old lines the patch leaves the unflagged ones, and back. -/
theorem removalPatch_applies
    (whole : ∀ line ∈ lines, '\n' ∉ line.toList.rdropWhile isLineBreak)
    (plain : '\n' ∉ name.toList) :
    let old := lines.map endedLine
    let new := unflagged verdicts old
    (∃ hunks, Hunk.readDiff? (removalPatch lines verdicts name) = some hunks ∧
        Hunk.applyAll? 0 0 hunks old = some new ∧
        Hunk.applyAll? 0 0 (hunks.map Hunk.reverse) new = some old) ∧
      (removalPatch lines verdicts name = "" ↔
        ∀ v ∈ verdicts, v.flagged = true → ¬ (1 ≤ v.line ∧ v.line ≤ lines.length)) := by
  have fed := fed_removalHunks lines verdicts whole
  rw [removalPatch_eq]
  have plainOld : '\n' ∉ ("a/" ++ name).toList := by simpa using plain
  have plainNew : '\n' ∉ ("b/" ++ name).toList := by simpa using plain
  refine ⟨⟨_, readDiff?_diffText plainOld plainNew (Hunk.readAll?_text fed),
    applyAll?_removalHunks lines verdicts⟩, ?_⟩
  rw [diffText_eq_empty_iff, removalHunks_eq_nil_iff]

theorem removalPatch_applies_to_block :
    let lines := ["dependencies \x7b", " implementation(\"com.google.guava:guava:33.0.0\")", "\x7d"]
    let verdicts := audit Tables.builtIn none lines
    ∃ hunks, Hunk.readDiff? (removalPatch lines verdicts "build.gradle.kts") = some hunks ∧
      Hunk.applyAll? 0 0 hunks (lines.map endedLine) = some ["dependencies \x7b\n", "\x7d\n"] := by
  intro lines verdicts
  have whole : ∀ line ∈ lines, '\n' ∉ line.toList.rdropWhile isLineBreak := by decide +kernel
  have plain : '\n' ∉ "build.gradle.kts".toList := by decide +kernel
  obtain ⟨⟨hunks, read, applied, _⟩, _⟩ := removalPatch_applies lines verdicts _ whole plain
  have left : unflagged verdicts (lines.map endedLine) = ["dependencies \x7b\n", "\x7d\n"] := by
    decide +kernel
  exact ⟨hunks, read, left ▸ applied⟩

end Patch
end DependencyAudit
