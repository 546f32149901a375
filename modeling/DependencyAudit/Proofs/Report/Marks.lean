import DependencyAudit.Proofs.Declaration.Place
import DependencyAudit.Proofs.Report.Patch

/-!
Marks of the removal patch. The search for shared runs may mark lines that are
not flagged and add them again elsewhere; it does so exactly if a run of remaining
lines can be read too early. Lines of one text are flagged alike, since a line is
read without its place, so the patch always is a script to the live elements.
-/
namespace DependencyAudit
open Diff

/-- Lines of one text are all flagged or all unflagged. -/
def FlaggedAlike (verdicts : List Verdict) (lines : List String) : Prop :=
  ∀ (i j : Nat) text, lines[i]? = some text → lines[j]? = some text →
    unflaggedAt verdicts (1 + i) = unflaggedAt verdicts (1 + j)

/-- No flagged line has this text. -/
def unflaggedText (verdicts : List Verdict) (lines : List String) (text : String) : Bool :=
  (lines.zipIdx 1).all fun line => line.1 ≠ text || unflaggedAt verdicts line.2

section Alike
variable {verdicts : List Verdict} {lines : List String}

theorem FlaggedAlike.unflaggedText_eq (alike : FlaggedAlike verdicts lines) {i : Nat}
    {text : String} (h : lines[i]? = some text) :
    unflaggedText verdicts lines text = unflaggedAt verdicts (1 + i) := by
  rw [Bool.eq_iff_iff, unflaggedText, List.all_eq_true]
  constructor
  · intro all
    have member : (text, 1 + i) ∈ lines.zipIdx 1 := by
      rw [List.mk_mem_zipIdx_iff_le_and_getElem?_sub]
      exact ⟨by omega, by rwa [Nat.add_sub_cancel_left]⟩
    simpa using all _ member
  · rintro here ⟨other, n⟩ member
    obtain ⟨le, found⟩ := List.mk_mem_zipIdx_iff_le_and_getElem?_sub.1 member
    by_cases same : other = text
    · have there := alike i (n - 1) text h (same ▸ found)
      have place : (1 : Int) + ((n - 1 : Nat) : Int) = n := by omega
      rw [here, place] at there
      simp [← there]
    · simp [same]

theorem FlaggedAlike.remaining_eq (alike : FlaggedAlike verdicts lines) :
    unflagged verdicts lines = lines.filter (unflaggedText verdicts lines) ∧
      remainingStretches (removedLines verdicts) lines =
        stretches (unflaggedText verdicts lines) lines := by
  rw [← remaining_removedLines]
  apply remainingFrom_of_live
  intro i text found
  rw [contains_removedLines, alike.unflaggedText_eq found]

end Alike

section Hunks
variable {lines : List String} {verdicts : List Verdict}
  (alike : FlaggedAlike verdicts (lines.map endedLine))
include alike

theorem exists_removalScript :
    let old := lines.map endedLine
    let live := unflaggedText verdicts old
    ∃ s : Script String, s.old = old ∧ s.new = old.filter live ∧
      Hunk.added (removalHunks lines verdicts) = s.added ∧
      Hunk.removed (removalHunks lines verdicts) = s.removedFrom 1 ∧
      (s.added = [] ↔ ¬ Confusable (Script.popular (unflagged verdicts old))
        (remainingStretches (removedLines verdicts) old)) := by
  intro old live
  obtain ⟨filtered, parts⟩ := alike.remaining_eq
  refine ⟨Script.ofLists old (unflagged verdicts old), Script.old_between _ _ _, ?_,
    Hunk.added_ofScript _, Hunk.removed_ofScript _, ?_⟩
  · exact (Script.new_between _ _ _).trans filtered
  · rw [Script.ofLists, parts]
    nth_rewrite 2 [filtered]
    exact Script.added_between_eq_nil_iff _ live old

theorem unflaggedAt_of_mem_removed {m : Nat × String}
    (h : m ∈ Hunk.removed (removalHunks lines verdicts)) :
    (lines.map endedLine)[m.1 - 1]? = some m.2 ∧
      unflaggedText verdicts (lines.map endedLine) m.2 = unflaggedAt verdicts m.1 := by
  obtain ⟨s, old, _, _, removed, _⟩ := exists_removalScript alike
  rw [removed] at h
  obtain ⟨le, found⟩ := Script.le_of_mem_removedFrom h
  rw [old] at found
  refine ⟨found, ?_⟩
  have place : (1 : Int) + ((m.1 - 1 : Nat) : Int) = m.1 := by omega
  rw [alike.unflaggedText_eq found, place]

theorem mem_removed_of_flagged {i : Nat} {text : String}
    (found : (lines.map endedLine)[i]? = some text)
    (flagged : unflaggedAt verdicts (1 + i) = false) :
    (1 + i, text) ∈ Hunk.removed (removalHunks lines verdicts) := by
  obtain ⟨s, old, new, _, removed, _⟩ := exists_removalScript alike
  rw [removed]
  apply Script.mem_removedFrom (old.symm ▸ found)
  rw [new]
  intro member
  have live := (List.mem_filter.1 member).2
  rw [alike.unflaggedText_eq found, flagged] at live
  cases live

/-- What is added again is what is marked without being flagged. -/
theorem added_removalHunks_perm :
    (Hunk.added (removalHunks lines verdicts)).Perm
      (((Hunk.removed (removalHunks lines verdicts)).filter fun m =>
        unflaggedAt verdicts m.1).map (·.2)) := by
  obtain ⟨s, old, new, added, removed, _⟩ := exists_removalScript alike
  have again := Script.added_perm (new.trans (congrArg _ old.symm)) 1
  rw [← added, ← removed, List.filter_map] at again
  have same : (Hunk.removed (removalHunks lines verdicts)).filter
        (unflaggedText verdicts (lines.map endedLine) ∘ (·.2)) =
      (Hunk.removed (removalHunks lines verdicts)).filter fun m => unflaggedAt verdicts m.1 := by
    apply List.filter_congr
    intro m hm
    exact (unflaggedAt_of_mem_removed alike hm).2
  rwa [same] at again

theorem added_removalHunks_eq_nil_iff :
    Hunk.added (removalHunks lines verdicts) = [] ↔
      ∀ m ∈ Hunk.removed (removalHunks lines verdicts), unflaggedAt verdicts m.1 = false := by
  have balance := added_removalHunks_perm alike
  constructor
  · intro empty m hm
    have nothing := List.map_eq_nil_iff.1 (List.nil_perm.1 (empty ▸ balance))
    simpa using List.filter_eq_nil_iff.1 nothing m hm
  · intro all
    apply List.perm_nil.1
    have nothing : (Hunk.removed (removalHunks lines verdicts)).filter
        (fun m => unflaggedAt verdicts m.1) = [] := by
      rw [List.filter_eq_nil_iff]
      intro m hm
      simp [all m hm]
    rwa [nothing] at balance

/-- Remaining lines that all differ are never taken for one another. -/
theorem added_removalHunks_eq_nil
    (nodup : (unflagged verdicts (lines.map endedLine)).Nodup) :
    Hunk.added (removalHunks lines verdicts) = [] := by
  obtain ⟨s, _, _, added, _, none_iff⟩ := exists_removalScript alike
  obtain ⟨filtered, parts⟩ := alike.remaining_eq
  rw [added, none_iff, Script.popular_eq_nil_of_nodup nodup]
  apply not_confusable_of_nodup
  rwa [parts, flatten_stretches, ← filtered]

end Hunks

section Audit
variable (tables : Tables) (evidence : Option (List String)) (lines : List String)

/-- Whether a line is flagged is a matter of the line alone. -/
theorem unflaggedAt_audit {lines : List String} {i : Nat} {line : String}
    (found : lines[i]? = some line) :
    unflaggedAt (audit tables evidence lines) (1 + i) =
      (Declaration.ofLine 0 line).all fun d => !(Verdict.of tables evidence d).flagged := by
  rw [Bool.eq_iff_iff, unflaggedAt, List.all_eq_true, List.all_eq_true]
  constructor
  · intro alone d hd
    have here : d.moved (1 + i) ∈ Declaration.ofLine (1 + i) line := by
      rw [Declaration.ofLine_eq_map_moved 0]
      exact List.mem_map_of_mem hd
    have member : d.moved (1 + i) ∈ Declaration.ofLines lines :=
      Declaration.mem_ofLinesFrom.2 ⟨i, line, found, here⟩
    have unflagged := alone _ (List.mem_map_of_mem member)
    rw [Verdict.of_moved] at unflagged
    simpa [Verdict.moved, Verdict.line, Declaration.moved] using unflagged
  · intro spared v hv
    obtain ⟨d, hd, rfl⟩ := List.mem_map.1 hv
    obtain ⟨k, other, foundOther, member⟩ := Declaration.mem_ofLinesFrom.1 hd
    by_cases same : d.line = 1 + i
    · have place := Declaration.line_of_mem_ofLine member
      have index : k = i := by omega
      rw [index, found] at foundOther
      cases Option.some.inj foundOther
      rw [Declaration.ofLine_eq_map_moved 0] at member
      obtain ⟨first, hfirst, rfl⟩ := List.mem_map.1 member
      have unflagged := spared first hfirst
      rw [Verdict.of_moved]
      simp only [Verdict.moved, unflagged, Bool.true_or]
    · simp only [Verdict.line_of, ne_eq, same, not_false_eq_true, decide_true, Bool.or_true]

variable {lines}

theorem flaggedAlike_audit (plain : ∀ line ∈ lines, ∀ c ∈ line.toList, isLineBreak c = false) :
    FlaggedAlike (audit tables evidence lines) (lines.map endedLine) := by
  intro i j text hi hj
  rw [List.getElem?_map, Option.map_eq_some_iff] at hi hj
  obtain ⟨line, hline, rfl⟩ := hi
  obtain ⟨other, hother, eq⟩ := hj
  have plainLine := endedLine_eq (plain line (List.mem_of_getElem? hline))
  have plainOther := endedLine_eq (plain other (List.mem_of_getElem? hother))
  rw [plainLine, plainOther] at eq
  have same : other = line := by
    have texts := congrArg String.toList eq
    rw [String.toList_append, String.toList_append] at texts
    exact String.toList_inj.1 (List.append_cancel_right texts)
  rw [unflaggedAt_audit tables evidence hline, unflaggedAt_audit tables evidence hother, same]

theorem mem_marks_of_removed (plain : ∀ line ∈ lines, ∀ c ∈ line.toList, isLineBreak c = false)
    {n : Int} (h : n ∈ removedLines (audit tables evidence lines)) :
    n ∈ (Hunk.removed (removalHunks lines (audit tables evidence lines))).map
      fun m => (m.1 : Int) := by
  obtain ⟨v, hv, _, rfl⟩ := mem_removedLines.1 h
  obtain ⟨d, hd, rfl⟩ := List.mem_map.1 hv
  obtain ⟨i, line, found, member⟩ := Declaration.mem_ofLinesFrom.1 hd
  have place : (Verdict.of tables evidence d).line = 1 + i := by
    rw [Verdict.line_of, Declaration.line_of_mem_ofLine member]
  have flagged : unflaggedAt (audit tables evidence lines) (1 + i) = false := by
    rw [← Bool.not_eq_true', ← contains_removedLines, List.contains_iff_mem, ← place]
    exact h
  have foundOld : (lines.map endedLine)[i]? = some (endedLine line) := by
    rw [List.getElem?_map, found]
    rfl
  have marked := mem_removed_of_flagged (flaggedAlike_audit tables evidence plain) foundOld flagged
  refine List.mem_map.2 ⟨_, marked, ?_⟩
  rw [place]
  omega

/-- The patch marks what is flagged, and whatever else it marks it adds again. It
adds nothing exactly if only flagged lines are marked, which is so exactly if no
run of remaining lines can be read too early. -/
theorem removalPatch_marks (name : String)
    (plain : ∀ line ∈ lines, ∀ c ∈ line.toList, isLineBreak c = false) :
    let verdicts := audit tables evidence lines
    let removed := (Edit.ofVerdicts verdicts).map (·.line)
    let old := lines.map endedLine
    ∃ hunks, removalPatch lines verdicts name = diffText ("a/" ++ name) ("b/" ++ name) hunks ∧
      Hunk.readAll? (String.join (hunks.map Hunk.text)) = some hunks ∧
      let marks := Hunk.removed hunks
      (∀ n ∈ removed, n ∈ marks.map fun m => (m.1 : Int)) ∧
      (Hunk.added hunks).Perm ((marks.filter fun m => unflaggedAt verdicts m.1).map (·.2)) ∧
      (Hunk.added hunks = [] ↔ ∀ n, n ∈ marks.map (fun m => (m.1 : Int)) ↔ n ∈ removed) ∧
      (Hunk.added hunks = [] ↔ ¬ Confusable (Script.popular (unflagged verdicts old))
        (remainingStretches removed old)) := by
  intro verdicts removed old
  have alike : FlaggedAlike verdicts old := flaggedAlike_audit tables evidence plain
  have whole : ∀ line ∈ lines, '\n' ∉ line.toList.rdropWhile isLineBreak := by
    intro line hline member
    cases plain line hline _ ((List.rdropWhile_prefix isLineBreak _).subset member)
  refine ⟨_, removalPatch_eq lines verdicts name, ?_, ?_, added_removalHunks_perm alike, ?_, ?_⟩
  · exact Hunk.readAll?_text (fed_removalHunks lines verdicts whole)
  · exact fun n hn => mem_marks_of_removed tables evidence plain hn
  · have flagged_iff (n : Int) : unflaggedAt verdicts n = false ↔ n ∈ removed := by
      rw [← Bool.not_eq_true', ← contains_removedLines, List.contains_iff_mem]
      exact Iff.rfl
    simp only [added_removalHunks_eq_nil_iff alike, flagged_iff]
    constructor
    · intro only n
      refine ⟨fun marked => ?_, mem_marks_of_removed tables evidence plain⟩
      obtain ⟨m, hm, rfl⟩ := List.mem_map.1 marked
      exact only m hm
    · intro iff m hm
      exact (iff m.1).1 (List.mem_map_of_mem hm)
  · obtain ⟨s, _, _, added, _, none_iff⟩ := exists_removalScript alike
    rw [added]
    exact none_iff

/-- A flagged line among others, some of which are there twice, with evidence for the one that a
name alone would flag. In a block nothing but the flagged line is marked. Where lines repeat across
it, the two before it are marked as well, and added again. -/
theorem removalPatch_marks_of_repeated_lines :
    let guava := "implementation('com.google.guava:guava:33.0.0')"
    let vavr := "api('io.vavr:vavr:1')"
    let verdicts := audit Tables.builtIn (some ["io.vavr:vavr:1"])
    let patch (lines : List String) := removalPatch lines (verdicts lines) "build.gradle"
    let removed (lines : List String) := (Edit.ofVerdicts (verdicts lines)).map (·.line)
    let places (hunks : List (Hunk String)) := (Hunk.removed hunks).map fun m => (m.1 : Int)
    let Confused (lines : List String) :=
      Confusable (Script.popular (unflagged (verdicts lines) (lines.map endedLine)))
        (remainingStretches (removed lines) (lines.map endedLine))
    let block := ["dependencies \x7b", "", guava, "", vavr, "", "\x7d"]
    let repeated := [vavr, "", guava, vavr, "", vavr]
    (∃ hunks, patch block = diffText "a/build.gradle" "b/build.gradle" hunks ∧
      3 ∈ places hunks ∧ Hunk.added hunks = [] ∧
      (∀ n, n ∈ places hunks ↔ n ∈ removed block) ∧ ¬ Confused block) ∧
    ∃ hunks, patch repeated = diffText "a/build.gradle" "b/build.gradle" hunks ∧
      places hunks = [1, 2, 3] ∧ removed repeated = [3] ∧
      (Hunk.added hunks).Perm [vavr ++ "\n", "\n"] ∧
      ¬ (∀ n, n ∈ places hunks ↔ n ∈ removed repeated) ∧ Confused repeated := by
  intro guava vavr verdicts patch removed places Confused block repeated
  have plain : ∀ lines ∈ [block, repeated], ∀ line ∈ lines, ∀ c ∈ line.toList,
      isLineBreak c = false := by decide +kernel
  have back {lines : List String} {hunks : List (Hunk String)}
      (text : patch lines = diffText "a/build.gradle" "b/build.gradle" hunks)
      (read : Hunk.readAll? (String.join (hunks.map Hunk.text)) = some hunks) :
      Hunk.readDiff? (patch lines) = some hunks :=
    (congrArg _ text).trans (readDiff?_diffText (by decide) (by decide) read)
  constructor
  · obtain ⟨hunks, text, read, marked, -, only, confused⟩ := removalPatch_marks Tables.builtIn
      (some ["io.vavr:vavr:1"]) "build.gradle" (plain block List.mem_cons_self)
    have added : (Hunk.readDiff? (patch block)).map Hunk.added = some [] := by decide +kernel
    rw [back text read] at added
    have added : Hunk.added hunks = [] := Option.some.inj added
    have flagged : 3 ∈ removed block := by decide +kernel
    exact ⟨hunks, text, marked 3 flagged, added, only.1 added, confused.1 added⟩
  · obtain ⟨hunks, text, read, -, again, only, confused⟩ := removalPatch_marks Tables.builtIn
      (some ["io.vavr:vavr:1"]) "build.gradle" (plain repeated (by simp))
    let all := [(1, vavr ++ "\n"), (2, "\n"), (3, guava ++ "\n")]
    have marks : (Hunk.readDiff? (patch repeated)).map Hunk.removed = some all := by decide +kernel
    rw [back text read] at marks
    have marks : Hunk.removed hunks = all := Option.some.inj marks
    have kept : (all.filter fun m => unflaggedAt (verdicts repeated) m.1).map (·.2) =
        [vavr ++ "\n", "\n"] := by decide +kernel
    have again : (Hunk.added hunks).Perm [vavr ++ "\n", "\n"] := kept ▸ marks ▸ again
    have nonempty : Hunk.added hunks ≠ [] := fun nothing => by
      rw [nothing] at again
      cases again.nil_eq
    have flagged : removed repeated = [3] := by decide +kernel
    refine ⟨hunks, text, ?_, flagged, again, mt only.2 nonempty,
      not_not.1 (mt confused.2 nonempty)⟩
    exact congrArg (List.map fun m => (m.1 : Int)) marks

/-- Lines that are not flagged are taken out and added again. -/
theorem unflagged_lines_added_again :
    let flagged := "implementation(\"com.google.guava:guava:33.0.0\")"
    let lines := ["\x7d", "", flagged, "\x7d", "", "\x7d"]
    let verdicts := audit Tables.builtIn none lines
    let hunks := Hunk.readDiff? (removalPatch lines verdicts "build.gradle.kts")
    removedLines verdicts = [3] ∧ hunks.map Hunk.added = some ["\n", "\x7d\n"] ∧
      hunks.map (fun hunks => (Hunk.removed hunks).map (·.1)) = some [1, 2, 3] := by
  decide +kernel

end Audit
end DependencyAudit
