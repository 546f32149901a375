import DependencyAudit.Command.Audit
import DependencyAudit.Proofs.Results

/-!
Audits that end well. A run ends well exactly if every piece can be made and the file can
be written, and then it has printed all of its pieces in order. What an audit is about is
settled by the session and the request before any of that.
-/
namespace DependencyAudit.Command

section Pieces
variable {before after : List Piece} {files : FileTree} {write : Except Crash FileTree}

theorem printed_append (h : (printed before).2 = none) (after : List Piece) :
    printed (before ++ after) = ((printed before).1 ++ (printed after).1, (printed after).2) := by
  induction before with
  | nil => simp [printed]
  | cons piece rest ih =>
      cases piece with
      | error c => cases h
      | ok s => simp only [List.cons_append, printed, ih h, String.append_assoc]

theorem printed_append_none_iff :
    (printed (before ++ after)).2 = none ↔
      (printed before).2 = none ∧ (printed after).2 = none := by
  induction before with
  | nil => simp [printed]
  | cons piece rest ih =>
      cases piece with
      | error c => exact ⟨nofun, nofun⟩
      | ok s => exact ih

theorem ending_ofPieces_iff {pieces : List Piece} :
    (Outcome.ofPieces files pieces).ending = .exit 0 ↔ (printed pieces).2 = none := by
  rw [Outcome.ofPieces]
  cases (printed pieces).2 with
  | none => exact ⟨fun _ => rfl, fun _ => rfl⟩
  | some c => exact ⟨nofun, nofun⟩

/-- A run that ends well printed what it says first and then the rest. -/
theorem writing_ended (h : (Outcome.writing files before write after).ending = .exit 0) :
    (printed before).2 = none ∧ (∃ written, write = .ok written) ∧ (printed after).2 = none ∧
      (Outcome.writing files before write after).output =
        (printed before).1 ++ (printed after).1 := by
  cases first : (printed before).2 with
  | some c =>
      simp only [Outcome.writing, first, ending_ofPieces_iff] at h
      cases h
  | none =>
      cases write with
      | error c =>
          simp only [Outcome.writing, first] at h
          cases h
      | ok written =>
          simp only [Outcome.writing, first, ending_ofPieces_iff, printed_append first] at h
          simp only [Outcome.writing, first, Outcome.ofPieces, printed_append first, h, and_true]
          exact ⟨trivial, written, rfl⟩

/-- With everything to print and to write at hand the run ends well. -/
theorem writing_of_whole {written : FileTree} (first : (printed before).2 = none)
    (last : (printed after).2 = none) :
    Outcome.writing files before (.ok written) after =
      ⟨(printed before).1 ++ (printed after).1, written, .exit 0⟩ := by
  simp only [Outcome.writing, first, Outcome.ofPieces, printed_append first, last,
    Option.map_none, Option.getD_none]

end Pieces

namespace Audit
variable {s : Session} {r : AuditRequest} {a : Audit}

/-- All that is settled before an audit is reported. -/
structure Prepared (s : Session) (r : AuditRequest) (a : Audit) : Prop where
  request : a.request = r
  format : Format.ofName? (s.chosen r.format "report" "output_format" "table") = some a.format
  showAll : a.showAll =
    r.showAll.getD (((s.setting? "report" "show_all").map Tree.isGiven).getD true)
  lines : s.readScript r.manifest = .ok a.lines
  basis : Basis.settle s r.mode r.evidence = .ok a.basis
  verdicts : a.verdicts = audit s.tables a.basis.evidence? a.lines
  summary : Summary.ofVerdicts a.verdicts = .ok a.summary

theorem prepare_eq_ok_iff : prepare s r = .ok a ↔ Prepared s r a := by
  cases named : Format.ofName? (s.chosen r.format "report" "output_format" "table") with
  | none =>
      simp only [prepare, named]
      exact ⟨nofun, fun h => nomatch named.symm.trans h.format⟩
  | some format =>
      simp only [prepare, named]
      constructor
      · intro h
        obtain ⟨_, ⟨⟩, h⟩ := bind_eq_ok_iff.1 h
        obtain ⟨lines, hlines, h⟩ := bind_eq_ok_iff.1 h
        obtain ⟨basis, hbasis, h⟩ := bind_eq_ok_iff.1 h
        obtain ⟨summary, hsummary, h⟩ := bind_eq_ok_iff.1 h
        cases h
        exact ⟨rfl, named, rfl, hlines, hbasis, rfl, mapError_eq_ok_iff.1 hsummary⟩
      · rintro ⟨rfl, hformat, hshow, hlines, hbasis, hverdicts, hsummary⟩
        cases named.symm.trans hformat
        rw [hverdicts] at hsummary
        refine bind_eq_ok_iff.2 ⟨a.format, rfl, bind_eq_ok_iff.2 ⟨a.lines, hlines, ?_⟩⟩
        refine bind_eq_ok_iff.2 ⟨a.basis, hbasis, bind_eq_ok_iff.2 ⟨a.summary, ?_, ?_⟩⟩
        · exact mapError_eq_ok_iff.2 hsummary
        rw [← hverdicts, ← hshow]
        rfl

/-- The report as a document, once its totals are known. -/
def entries (a : Audit) : Fields :=
  [("manifest", .text a.report.manifest), ("mode", .text a.basis.mode.name),
    ("evidence_file", .ofOption .text a.report.evidence), ("summary", a.summary.toTree),
    ("results", .list (a.verdicts.map Verdict.toTree)),
    ("removal_edits", .list ((Edit.ofVerdicts a.verdicts).map Edit.toTree))]
    ++ if a.request.patch then [("patch", .text a.patch)] else []

theorem Prepared.document (h : Prepared s r a) : a.document = .ok (.table a.entries) := by
  have summary : Summary.ofVerdicts a.report.verdicts = .ok a.summary := h.summary
  have reported : a.report.entries =
      .ok [("manifest", .text a.report.manifest), ("mode", .text a.basis.mode.name),
        ("evidence_file", .ofOption .text a.report.evidence), ("summary", a.summary.toTree),
        ("results", .list (a.verdicts.map Verdict.toTree)),
        ("removal_edits", .list ((Edit.ofVerdicts a.verdicts).map Edit.toTree))] :=
    bind_eq_ok_iff.2 ⟨_, summary, rfl⟩
  rw [Audit.document, reported]
  rfl

theorem run_of_prepared (h : Prepared s r a) :
    run s r = .writing s.files (a.log s) (a.write s) (a.pieces s) := by
  rw [run, prepare_eq_ok_iff.2 h]

/-- Whether all of a report can be printed and written. -/
def endsWell (s : Session) (a : Audit) : Bool :=
  (Outcome.writing s.files (a.log s) (a.write s) (a.pieces s)).ending = .exit 0

theorem exists_ended {p : Audit → Bool}
    (h : ((prepare s r).toOption.any fun a => a.endsWell s && p a) = true) :
    ∃ a, prepare s r = .ok a ∧ (run s r).ending = .exit 0 ∧ p a = true := by
  obtain ⟨a, prepared, facts⟩ := exists_of_any_toOption h
  obtain ⟨ended, holds⟩ := Bool.and_eq_true_iff.1 facts
  have done := of_decide_eq_true ended
  rw [← run_of_prepared (prepare_eq_ok_iff.1 prepared)] at done
  exact ⟨a, prepared, done, holds⟩

end Audit
end DependencyAudit.Command
