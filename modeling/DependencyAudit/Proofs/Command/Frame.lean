import DependencyAudit.Proofs.Command.Document
import DependencyAudit.Proofs.Command.Request
import DependencyAudit.Proofs.Files.Frame

/-!
What runs do to files. Everything that may be refused is settled before anything is written, so
a run that is refused leaves the files as they were, and only an audit writes at all: the one
file that it is told to, with the whole report in it.
-/
namespace DependencyAudit

section Page
variable {report : Report} {flaggedOnly : Bool} {page : String}

/-- What a page says before its totals. -/
def Report.pageHead (report : Report) : String :=
  s!"# Dependency audit: {report.manifest}\n\n"
    ++ s!"_Mode: {report.mode.name}_\n{Markdown.source report.evidence}\n" ++ "## Summary\n\n"

/-- The totals on a page are those of all verdicts, whichever of them it shows. -/
theorem Report.exists_of_markdown (h : report.markdown flaggedOnly = .ok page) :
    ∃ summary totals rest, Summary.ofVerdicts report.verdicts = .ok summary ∧
      Markdown.totals summary = .ok totals ∧
      page = report.pageHead ++ Markdown.lines totals ++ rest := by
  obtain ⟨summary, summed, h⟩ := bind_eq_ok_iff.1 h
  obtain ⟨rows, _, h⟩ := bind_eq_ok_iff.1 h
  obtain ⟨totals, told, h⟩ := bind_eq_ok_iff.1 h
  cases h
  have regroup (head title body next table foot last : String) :
      head ++ (title ++ body ++ next ++ table ++ foot) ++ last
        = head ++ title ++ body ++ (next ++ table ++ foot ++ last) := by
    simp only [String.append_assoc]
  exact ⟨summary, totals, _, mapError_eq_ok_iff.1 summed, mapError_eq_ok_iff.1 told,
    regroup _ _ _ _ _ _ _⟩

end Page

namespace Command

/-- A run ends by telling what is wrong with what it was given. -/
def Ending.IsRefusal : Ending → Prop
  | .exit code => code ≠ 0
  | .usage _ => True
  | .crash _ => False

section Writing
variable {files : FileTree} {before after : List Piece} {write : Except Crash FileTree}

theorem not_isRefusal_ofPieces : ¬ (Outcome.ofPieces files before).ending.IsRefusal := by
  rw [Outcome.ofPieces]
  cases (printed before).2 with
  | none => exact fun refused => refused rfl
  | some c => exact id

theorem not_isRefusal_writing : ¬ (Outcome.writing files before write after).ending.IsRefusal := by
  unfold Outcome.writing
  split
  case h_1 => exact not_isRefusal_ofPieces
  case h_2 => exact id
  case h_3 => exact not_isRefusal_ofPieces

theorem write_eq_of_ended (h : (Outcome.writing files before write after).ending = .exit 0) :
    write = .ok (Outcome.writing files before write after).files := by
  obtain ⟨said, ⟨written, rfl⟩, whole, _⟩ := writing_ended h
  rw [writing_of_whole said whole]

end Writing

theorem scriptStop_ending (f : ScriptFault) : (Session.scriptStop f).ending ≠ .exit 0 := by
  unfold Session.scriptStop
  split <;> exact nofun

theorem Basis.settle_stop {s : Session} {mode : Option String} {path : Option Path} {stop : Stop}
    (h : settle s mode path = .error stop) : stop.ending ≠ .exit 0 := by
  unfold settle at h
  dsimp only at h
  split at h
  case isTrue =>
    cases h
    exact nofun
  case isFalse =>
    split at h
    case isTrue => cases h
    case isFalse =>
      split at h
      case h_1 =>
        cases h
        exact nofun
      case h_2 =>
        split at h <;> cases h
        exact nofun
      case h_3 p _ =>
        cases found : s.files.readEvidence s.env p with
        | ok resolved =>
            rw [found] at h
            cases h
        | error f =>
            rw [found] at h
            cases h
            cases f <;> exact nofun

namespace Audit
variable {s : Session} {r : AuditRequest} {a : Audit} {content : String}

/-- What an audit writes: the whole report as a document with its patch, or as a page with the
totals of all verdicts, even if it shows flagged ones only. -/
structure Written (s : Session) (a : Audit) (content : String) : Prop where
  document : a.isDocument s = true → ∃ entries, a.report.entries = .ok entries ∧
    content = Json.write .file
      (.table (entries ++ if a.request.patch then [("patch", .text a.patch)] else [])) ++ "\n"
  page : a.isDocument s = false → a.report.markdown (!a.showAll) = .ok content ∧
    ∃ summary totals rest, Summary.ofVerdicts a.verdicts = .ok summary ∧
      Markdown.totals summary = .ok totals ∧
      content = a.report.pageHead ++ Markdown.lines totals ++ rest

theorem Prepared.written (prepared : Prepared s r a) (h : a.content s = .ok content) :
    Written s a content := by
  unfold Audit.content at h
  cases document : a.isDocument s with
  | true =>
      rw [document, if_pos rfl, prepared.document] at h
      obtain ⟨_, rfl⟩ := documentText_eq_ok_iff.1 h
      obtain ⟨entries, reported, same⟩ := prepared.report
      refine ⟨fun _ => ⟨entries, reported, ?_⟩, fun page => (nomatch page.symm.trans document)⟩
      rw [same, prepared.request]
  | false =>
      rw [document, if_neg Bool.false_ne_true] at h
      have page := mapError_eq_ok_iff.1 h
      exact ⟨fun file => (nomatch file.symm.trans document),
        fun _ => ⟨page, Report.exists_of_markdown page⟩⟩

theorem files_of_isRefusal (refused : (run s r).ending.IsRefusal) : (run s r).files = s.files := by
  unfold run at refused ⊢
  split at refused
  case h_1 => rfl
  case h_2 => exact absurd refused not_isRefusal_writing

/-- The files after an audit that ends well. -/
def Leaves (s : Session) (r : AuditRequest) (a : Audit) (after : FileTree) : Prop :=
  match r.outputFile with
  | none => after = s.files
  | some p => ∃ content place, Written s a content ∧
      FileTree.Saved s.env p content.toUTF8.toList s.files after place

theorem Prepared.leaves (prepared : Prepared s r a) {after : FileTree}
    (h : a.write s = .ok after) : Leaves s r a after := by
  rw [write, prepared.request] at h
  unfold Leaves
  cases asked : r.outputFile with
  | none =>
      simp only [asked, Except.ok.injEq] at h
      exact h.symm
  | some p =>
      simp only [asked] at h
      obtain ⟨content, made, saved⟩ := bind_eq_ok_iff.1 h
      obtain ⟨place, saved⟩ := FileTree.exists_saved (mapError_eq_ok_iff.1 saved)
      exact ⟨content, place, prepared.written made, saved⟩

theorem prepare_stop {stop : Stop} (h : prepare s r = .error stop) : stop.ending ≠ .exit 0 := by
  cases named : Format.ofName? (s.chosen r.format "report" "output_format" "table") with
  | none =>
      simp only [prepare, named] at h
      cases h
      intro done
      cases done
  | some format =>
      simp only [prepare, named] at h
      obtain ⟨⟨⟩⟩ | ⟨_, _, h⟩ := bind_eq_error_iff.1 h
      obtain unread | ⟨lines, _, h⟩ := bind_eq_error_iff.1 h
      · obtain ⟨f, _, rfl⟩ := mapError_eq_error_iff.1 unread
        exact scriptStop_ending f
      obtain unsettled | ⟨basis, _, h⟩ := bind_eq_error_iff.1 h
      · exact Basis.settle_stop unsettled
      obtain unsummed | ⟨summary, _, h⟩ := bind_eq_error_iff.1 h
      · obtain ⟨f, _, rfl⟩ := mapError_eq_error_iff.1 unsummed
        intro done
        cases done
      cases h

theorem run_leaves (s : Session) (r : AuditRequest) :
    match prepare s r with
    | .error _ => (run s r).files = s.files ∧ (run s r).ending ≠ .exit 0
    | .ok a => (run s r).ending = .exit 0 → Leaves s r a (run s r).files := by
  cases prepared : prepare s r with
  | error stop =>
      rw [run, prepared]
      exact ⟨rfl, prepare_stop prepared⟩
  | ok a =>
      have settled := prepare_eq_ok_iff.1 prepared
      rw [run_of_prepared settled]
      exact fun done => settled.leaves (write_eq_of_ended done)

end Audit

section Run
variable {env : Environment} {files : FileTree} {args : List String} {s : Session}
  {request : Request}

theorem prepare_eq_ok (h : prepare env files args = .ok (s, request)) :
    ∃ general name rest, split args = .ok (general, some (name, rest)) ∧
      begin env files general = .ok s ∧ Request.ofArguments name rest = .ok request := by
  obtain ⟨⟨general, command⟩, parted, h⟩ := bind_eq_ok_iff.1 h
  obtain ⟨session, begun, h⟩ := bind_eq_ok_iff.1 h
  cases command with
  | none => cases h
  | some command =>
      obtain ⟨name, rest⟩ := command
      obtain ⟨_, asked, h⟩ := bind_eq_ok_iff.1 h
      cases h
      exact ⟨general, name, rest, mapError_eq_ok_iff.1 parted, begun, mapError_eq_ok_iff.1 asked⟩

/-- Only the arguments of an audit ask for an audit. -/
theorem name_of_audit {name : Name} {rest : List String} {r : AuditRequest}
    (h : Request.ofArguments name rest = .ok (.audit r)) : name = .audit := by
  cases name with
  | audit => rfl
  | declarations =>
      obtain ⟨⟨options, others⟩, _, h⟩ := bind_eq_ok_iff.1 h
      dsimp only at h
      split at h
      case isTrue => cases h
      case isFalse =>
        obtain ⟨_, _, h⟩ := bind_eq_ok_iff.1 h
        cases h
  | explain =>
      obtain ⟨⟨options, others⟩, _, h⟩ := bind_eq_ok_iff.1 h
      dsimp only at h
      split at h
      case isTrue => cases h
      case isFalse =>
        obtain ⟨_, _, h⟩ := bind_eq_ok_iff.1 h
        obtain ⟨_, _, h⟩ := bind_eq_ok_iff.1 h
        cases h

theorem perform_files (other : ∀ r, request ≠ .audit r) : (perform s request).files = s.files := by
  cases request with
  | audit r => exact absurd rfl (other r)
  | declarations manifest =>
      rw [perform, Declarations.run]
      split <;> rfl
  | explain r =>
      rw [perform, Explain.run]
      split <;> rfl
  | help => rfl

/-- A run that is refused leaves all files as they were, and so does a run of another command
than an audit, however it ends. An audit that ends well leaves one file, the one it is told to
write, and what it leaves there is its whole report; but for directories on the way to that file
nothing else is new or other than before. -/
theorem run_frame (env : Environment) (files : FileTree) (args : List String) :
    let after := run env files args
    (after.ending.IsRefusal → after.files = files) ∧
      ((∀ general rest, split args ≠ .ok (general, some (.audit, rest))) →
        after.files = files) ∧
      match prepare env files args with
      | .ok (s, .audit r) => s.env = env ∧ s.files = files ∧
          match Audit.prepare s r with
          | .error _ => after.files = files ∧ after.ending ≠ .exit 0
          | .ok a => after.ending = .exit 0 → Audit.Leaves s r a after.files
      | _ => after.files = files := by
  intro after
  cases prepared : prepare env files args with
  | error stop =>
      have stopped : after = .stopped files stop := by simp only [after, run, prepared]
      simp [stopped, Outcome.stopped]
  | ok pair =>
      obtain ⟨s, request⟩ := pair
      obtain ⟨general, name, rest, parted, begun, asked⟩ := prepare_eq_ok prepared
      have performed : after = perform s request := by simp only [after, run, prepared]
      obtain ⟨_, _, _, -, -, -, made⟩ := begin_eq_ok begun
      have sameEnv : s.env = env := by rw [made]
      have sameFiles : s.files = files := by rw [made]
      cases request with
      | audit r =>
          rw [performed]
          refine ⟨fun refused => ?_, fun other => ?_, sameEnv, sameFiles, ?_⟩
          · exact (Audit.files_of_isRefusal refused).trans sameFiles
          · cases name_of_audit asked
            exact absurd parted (other general rest)
          · exact sameFiles ▸ Audit.run_leaves s r
      | declarations _ | explain _ | help =>
          have kept : after.files = files := by
            rw [performed]
            exact (perform_files (fun _ => by simp)).trans sameFiles
          exact ⟨fun _ => kept, fun _ => kept, kept⟩

/-- An audit that can be reported and writes a page to a file. -/
def writesPage (s : Session) (place : Path) : Request → Bool
  | .audit r => r.outputFile = some place &&
      (Audit.prepare s r).toOption.any fun a => !a.isDocument s && a.endsWell s
  | _ => false

/-- An audit that shows flagged declarations only and writes its page beside the script. -/
theorem run_frame_of_page :
    let env : Environment := { bindings := [("HOME", "/home")], directory := ["work"] }
    let files := (Audit.besideScript .default "api 'io.vavr:vavr:1'\n").files
    let args := ["audit", "build.gradle", "--flagged-only", "--output-file", "out/report.md"]
    ∃ s a content place, s.env = env ∧ Audit.Written s a content ∧ a.isDocument s = false ∧
      FileTree.Saved env ⟨"", ["out", "report.md"]⟩ content.toUTF8.toList files
        (run env files args).files place := by
  intro env files args
  have whole : ((prepare env files args).toOption.any fun pair =>
      writesPage pair.1 ⟨"", ["out", "report.md"]⟩ pair.2) = true := by decide +kernel
  clear_value env files args
  obtain ⟨⟨s, request⟩, prepared, facts⟩ := exists_of_any_toOption whole
  have frame := (run_frame env files args).2.2
  rw [prepared] at frame
  cases request with
  | audit r =>
      obtain ⟨asked, facts⟩ := Bool.and_eq_true_iff.1 facts
      obtain ⟨a, audited, facts⟩ := exists_of_any_toOption facts
      obtain ⟨page, done⟩ := Bool.and_eq_true_iff.1 facts
      obtain ⟨sameEnv, sameFiles, leaves⟩ := frame
      have ended : (run env files args).ending = .exit 0 := by
        have performed : run env files args = Audit.run s r := by
          simp only [run, prepared, perform]
        rw [performed, Audit.run_of_prepared (Audit.prepare_eq_ok_iff.1 audited)]
        exact of_decide_eq_true done
      rw [audited] at leaves
      have leaves := leaves ended
      rw [Audit.Leaves, of_decide_eq_true asked] at leaves
      obtain ⟨content, place, written, saved⟩ := leaves
      rw [sameEnv, sameFiles] at saved
      exact ⟨s, a, content, place, sameEnv, written, by simpa using page, saved⟩
  | declarations _ | explain _ | help => cases facts

end Run
end Command
end DependencyAudit
