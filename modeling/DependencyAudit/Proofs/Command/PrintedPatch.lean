import DependencyAudit.Proofs.Command.Audit
import DependencyAudit.Proofs.Console.Emoji
import DependencyAudit.Proofs.Declaration.Provenance
import DependencyAudit.Proofs.Report.Patch

/-!
The patch as it is printed. An audit that is to show its patch prints what it prints
without one, and the patch in one piece: through the console in a table or a page, and as
plain output otherwise. The console replaces tabs, shows emoji for their codes and leaves
characters out, all of which a script may well hold; what is printed is then another text than
the patch.
-/
namespace DependencyAudit.Command.Audit
open Diff Text
variable {s : Session} {r : AuditRequest} {a : Audit}

/-- The same audit when no patch is asked for. -/
def withoutPatch (a : Audit) : Audit := { a with request := { a.request with patch := false } }

/-- What the patch is printed as. -/
def printedPatch (s : Session) (a : Audit) : String :=
  if s.general.plain then Console.echoed a.patch
  else Console.shownText s.env.emoji a.patch

theorem Prepared.withoutPatch (h : Prepared s r a) :
    Prepared s { r with patch := false } a.withoutPatch :=
  ⟨by rw [Audit.withoutPatch, h.request], h.format, h.showAll, h.lines, h.basis, h.verdicts,
    h.summary⟩

theorem Prepared.line_within (h : Prepared s r a) {v : Verdict} (hv : v ∈ a.verdicts) :
    1 ≤ v.line ∧ v.line ≤ a.lines.length := by
  rw [h.verdicts] at hv
  obtain ⟨d, hd, rfl⟩ := List.mem_map.1 hv
  rw [Verdict.line_of]
  exact (Declaration.readFrom_of_mem_ofLines hd).within

theorem Prepared.patch_ne_empty (h : Prepared s r a)
    (flagged : ∃ v ∈ a.verdicts, v.flagged = true) : a.patch ≠ "" := by
  rw [patch, removalPatch_eq, ne_eq, diffText_eq_empty_iff, removalHunks_eq_nil_iff]
  intro outside
  obtain ⟨v, hv, flagged⟩ := flagged
  exact outside v hv flagged (h.line_within hv)

/-- Only a document holds the patch too, so a page is written as it is. -/
theorem write_withoutPatch (report : a.isDocument s = false) :
    a.withoutPatch.write s = a.write s := by
  have report' : a.withoutPatch.isDocument s = false := report
  have sameContent : a.withoutPatch.content s = a.content s := by
    simp only [content, report, report', Bool.false_eq_true, if_false]
    rfl
  rw [write, write, sameContent]
  rfl

theorem pieces_eq (report : a.isDocument s = false) :
    a.pieces s = if s.general.plain then a.plainPieces else a.consolePieces s := by
  simp only [pieces, report, Bool.false_eq_true, if_false]

/-- The patch stands in one piece among those that are printed anyway. -/
theorem exists_pieces (report : a.isDocument s = false) (asked : a.request.patch = true)
    (loud : s.general.quiet = false) (nonempty : a.patch ≠ "") :
    ∃ before after, a.withoutPatch.pieces s = before ++ after ∧
      a.pieces s = before ++ .ok (a.printedPatch s) :: after := by
  have report' : a.withoutPatch.isDocument s = false := report
  have unasked : a.withoutPatch.request.patch = false := rfl
  rw [pieces_eq report, pieces_eq report']
  by_cases plain : s.general.plain
  · refine ⟨a.withoutPatch.plainPieces, [], ?_, ?_⟩
    · rw [if_pos plain, List.append_nil]
    · simp only [plain, plainPieces, printedPatch, asked, unasked, Bool.false_eq_true, if_false,
        if_true, List.append_nil]
      rfl
  · refine ⟨a.consoleReport s,
      (a.request.outputFile.map fun path => s.markup s!"Report written to: {path.text}").toList,
      ?_, ?_⟩
    · simp only [plain, consolePieces, unasked, Bool.false_eq_true, if_false, List.append_nil]
      rfl
    · simp only [plain, consolePieces, printedPatch, asked, nonempty, Session.line,
        Session.console, loud, Bool.false_eq_true, if_false, if_true, List.append_assoc]
      rfl

theorem output_of_patch (prepared : Prepared s r a) (asked : r.patch = true)
    (report : a.isDocument s = false) (loud : s.general.quiet = false)
    (flagged : ∃ v ∈ a.verdicts, v.flagged = true) (done : (run s r).ending = .exit 0) :
    ∃ before after, (run s { r with patch := false }).output = before ++ after ∧
      (run s r).output = before ++ a.printedPatch s ++ after := by
  have request : a.request.patch = true := prepared.request ▸ asked
  obtain ⟨before, after, without, patched⟩ :=
    exists_pieces report request loud (prepared.patch_ne_empty flagged)
  rw [run_of_prepared prepared] at done
  obtain ⟨said, ⟨written, hwrite⟩, whole, output⟩ := writing_ended done
  rw [patched, printed_append_none_iff] at whole
  obtain ⟨first, last⟩ := whole
  have rest : (printed after).2 = none := last
  have same : a.withoutPatch.write s = .ok written := (write_withoutPatch report).trans hwrite
  have sameLog : a.withoutPatch.log s = a.log s := rfl
  refine ⟨(printed (a.log s)).1 ++ (printed before).1, (printed after).1, ?_, ?_⟩
  · rw [run_of_prepared prepared.withoutPatch, same, sameLog, without,
      writing_of_whole said (printed_append_none_iff.2 ⟨first, rest⟩), printed_append first,
      String.append_assoc]
  · rw [run_of_prepared prepared, output, patched, printed_append first]
    simp only [printed, String.append_assoc]

/-- An audit that ends well and is to show its patch prints it among what it prints anyway.
Up to spaces at the ends of lines and line feeds at the end, plain output shows the patch
itself unless it holds a colour or cursor sequence; the console, with room for its lines,
shows it exactly if it holds neither a tab nor a character that moves the cursor back, and no code
of an emoji that the console knows. -/
theorem printedPatch_alike_iff (prepared : prepare s r = .ok a) (asked : r.patch = true)
    (report : a.isDocument s = false) (loud : s.general.quiet = false)
    (flagged : ∃ v ∈ a.verdicts, v.flagged = true) (done : (run s r).ending = .exit 0) :
    let patch := removalPatch a.lines a.verdicts r.manifest.name
    (∃ before after, (run s { r with patch := false }).output = before ++ after ∧
        (run s r).output = before ++ a.printedPatch s ++ after) ∧
      (s.general.plain = true →
        (Alike (a.printedPatch s) patch ↔ ¬ Console.HasSequence patch.toList)) ∧
      (s.general.plain = false →
        (∀ line ∈ splitAtEach '\n' patch.toList, Console.Fits line) →
        (Alike (a.printedPatch s) patch ↔
          (∀ c ∈ patch.toList, c ≠ '\t' ∧ Console.movesBack c = false) ∧
            ∀ code ∈ Console.Emoji.codes patch.toList, s.env.emoji.sign? code = none)) := by
  intro removal
  have settled := prepare_eq_ok_iff.1 prepared
  have same : removal = a.patch := by
    rw [patch, settled.request]
  refine ⟨output_of_patch settled asked report loud flagged done, ?_, ?_⟩
  · intro plain
    rw [printedPatch, if_pos plain, same]
    exact Console.alike_echoed_iff a.patch
  · intro console fits
    rw [same] at fits ⊢
    rw [printedPatch, if_neg (by simp [console])]
    exact Console.alike_shownText_iff fits

section Scripts

/-- A run without settings beside a script of ASCII characters. -/
def besideScript (general : General) (script : String) : Session where
  env := { directory := ["work"] }
  files := [(["work"], .directory), (["work", "build.gradle"],
    .file (script.toList.map fun c => UInt8.ofNat c.toNat))]
  general
  settings := []
  tables := Tables.builtIn

/-- A console that knows an emoji by its name. -/
def ants : Console.Emoji := ⟨[("ant", "🐜")], by decide, by decide⟩

def askedPatch : AuditRequest :=
  { AuditRequest.empty with manifest := ⟨"", ["build.gradle"]⟩, patch := true }

/-- A report that is no document flags something, and all of it can be printed and written. -/
def flagsAndEnds (s : Session) (a : Audit) : Bool :=
  !a.isDocument s && a.verdicts.any (·.flagged) &&
    (Outcome.writing s.files (a.log s) (a.write s) (a.pieces s)).ending = .exit 0

theorem exists_prepared {p : Audit → Bool}
    (h : ((prepare s r).toOption.any fun a => a.flagsAndEnds s && p a) = true) :
    ∃ a, prepare s r = .ok a ∧ a.isDocument s = false ∧ (∃ v ∈ a.verdicts, v.flagged = true) ∧
      (run s r).ending = .exit 0 ∧ p a = true := by
  obtain ⟨a, prepared, facts⟩ := exists_of_any_toOption h
  simp only [flagsAndEnds, Bool.and_eq_true, Bool.not_eq_true', List.any_eq_true,
    decide_eq_true_eq] at facts
  obtain ⟨⟨⟨report, flagged⟩, done⟩, holds⟩ := facts
  rw [← run_of_prepared (prepare_eq_ok_iff.1 prepared)] at done
  exact ⟨a, prepared, report, flagged, done, holds⟩

/-- Plain output keeps a tab; with a space in its place the console shows the patch too, unless it
knows the emoji whose code is an artifact between colons. -/
theorem printedPatch_alike_iff_beside_script :
    let plain := besideScript { General.default with plain := true } "\tapi 'io.vavr:vavr:1'\n"
    let console := besideScript .default
      " implementation 'org.apache.ant:ant:1.10.14'\n api 'io.vavr:vavr:1'\n"
    let knowing : Session := { console with env := { console.env with emoji := ants } }
    let patch (a : Audit) := removalPatch a.lines a.verdicts askedPatch.manifest.name
    (∃ a, prepare plain askedPatch = .ok a ∧ '\t' ∈ (patch a).toList ∧
      Alike (a.printedPatch plain) (patch a)) ∧
    (∃ a, prepare console askedPatch = .ok a ∧ Alike (a.printedPatch console) (patch a)) ∧
    (∃ a, prepare knowing askedPatch = .ok a ∧ ¬ Alike (a.printedPatch knowing) (patch a)) := by
  intro plain console knowing patch
  refine ⟨?_, ?_, ?_⟩
  · obtain ⟨a, prepared, report, flagged, done, holds⟩ :=
      exists_prepared (s := plain) (r := askedPatch)
        (p := fun a => decide ('\t' ∈ (patch a).toList ∧ '\x1b' ∉ (patch a).toList))
        (by decide +kernel)
    obtain ⟨tab, escape⟩ := of_decide_eq_true holds
    have ⟨_, echoed, _⟩ := printedPatch_alike_iff prepared rfl report rfl flagged done
    refine ⟨a, prepared, tab, (echoed rfl).2 ?_⟩
    rintro ⟨rest, behind, _⟩
    exact escape (behind.subset List.mem_cons_self)
  · obtain ⟨a, prepared, report, flagged, done, holds⟩ :=
      exists_prepared (s := console) (r := askedPatch)
        (p := fun a => decide ((∀ line ∈ splitAtEach '\n' (patch a).toList, Console.Fits line) ∧
          ∀ c ∈ (patch a).toList, c ≠ '\t' ∧ Console.movesBack c = false))
        (by decide +kernel)
    obtain ⟨fits, kept⟩ := of_decide_eq_true holds
    have ⟨_, _, shown⟩ := printedPatch_alike_iff prepared rfl report rfl flagged done
    exact ⟨a, prepared, (shown rfl fits).2 ⟨kept, fun _ _ => rfl⟩⟩
  · obtain ⟨a, prepared, report, flagged, done, holds⟩ :=
      exists_prepared (s := knowing) (r := askedPatch)
        (p := fun a => decide ((∀ line ∈ splitAtEach '\n' (patch a).toList, Console.Fits line) ∧
          "ant".toList ∈ Console.Emoji.codes (patch a).toList))
        (by decide +kernel)
    obtain ⟨fits, code⟩ := of_decide_eq_true holds
    have ⟨_, _, shown⟩ := printedPatch_alike_iff prepared rfl report rfl flagged done
    exact ⟨a, prepared, fun alike => nomatch ((shown rfl fits).1 alike).2 _ code⟩

/-- A tab in front of a declaration: the audit ends well, and the patch on the console is
another text than the patch. -/
theorem printedPatch_of_tab :
    let s := besideScript .default "\tapi 'io.vavr:vavr:1'\n"
    ∃ a, prepare s askedPatch = .ok a ∧ a.isDocument s = false ∧
      (∃ v ∈ a.verdicts, v.flagged = true) ∧ (run s askedPatch).ending = .exit 0 ∧
      (∃ before after, (run s { askedPatch with patch := false }).output = before ++ after ∧
        (run s askedPatch).output = before ++ a.printedPatch s ++ after) ∧
      ¬ Alike (a.printedPatch s) (removalPatch a.lines a.verdicts askedPatch.manifest.name) := by
  intro s
  obtain ⟨a, prepared, report, flagged, done, other⟩ :=
    exists_prepared (s := s) (r := askedPatch)
      (p := fun a => decide (¬ Alike (a.printedPatch s)
        (removalPatch a.lines a.verdicts askedPatch.manifest.name)))
      (by decide +kernel)
  exact ⟨a, prepared, report, flagged, done,
    output_of_patch (prepare_eq_ok_iff.1 prepared) rfl report rfl flagged done,
    of_decide_eq_true other⟩

end Scripts
end DependencyAudit.Command.Audit
