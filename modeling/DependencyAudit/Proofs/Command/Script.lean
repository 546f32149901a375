import DependencyAudit.Proofs.Command.Frame
import DependencyAudit.Proofs.Files.Reading

/-!
What runs do to the script they are about. Nothing is ever written to it for its own sake, but an
audit writes its report to any file it is told to, and the script is no exception: it is lost to
the report exactly if the output file is the script under some spelling and the report gets as
far as being written.
-/
namespace DependencyAudit.Command

section Writing
variable {files written : FileTree} {before after : List Piece} {write : Except Crash FileTree}

theorem writing_files (said : (printed before).2 = none) :
    (Outcome.writing files before (.ok written) after).files = written := by
  simp only [Outcome.writing, said, Outcome.ofPieces]

/-- Files are other than before only if all was said that comes first, and the file written. -/
theorem writing_files_cases :
    (Outcome.writing files before write after).files = files ∨
      (printed before).2 = none ∧
        write = .ok (Outcome.writing files before write after).files := by
  cases said : (printed before).2 with
  | some c =>
      left
      simp only [Outcome.writing, said, Outcome.ofPieces]
  | none =>
      cases write with
      | error c =>
          left
          simp only [Outcome.writing, said]
      | ok written => exact .inr ⟨rfl, by rw [writing_files said]⟩

end Writing

theorem exists_of_readScript {s : Session} {manifest : Path} {lines : List String}
    (h : s.readScript manifest = .ok lines) :
    ∃ content, s.files.read s.env manifest = .ok content := by
  have h := mapError_eq_ok_iff.1 h
  unfold FileTree.readScript at h
  split at h
  case h_2 text _ readable =>
      obtain ⟨content, read, _⟩ := bind_eq_ok_iff.1 readable
      exact ⟨content, mapError_eq_ok_iff.1 read⟩
  all_goals cases h

namespace Audit
variable {s : Session} {r : AuditRequest} {a : Audit} {p : Path} {content : String}

/-- An audit whose report takes the place of the script. The output file may be spelled in
another way than the script; what counts is where the two paths lead. -/
structure Overwrites (s : Session) (r : AuditRequest) (a : Audit) (p : Path) (content : String) :
    Prop where
  prepared : prepare s r = .ok a
  said : (printed (a.log s)).2 = none
  asked : r.outputFile = some p
  same : s.env.resolve p = s.env.resolve r.manifest
  made : a.content s = .ok content
  saved : ∃ after, s.files.save s.env p content = .ok after

theorem Prepared.write_of_asked (prepared : Prepared s r a) (asked : r.outputFile = some p) :
    a.write s = (a.content s).bind fun content => (s.files.save s.env p content).mapError .file := by
  rw [write, prepared.request, asked]
  rfl

/-- The script then holds the report, whatever it held before. -/
theorem Overwrites.read (h : Overwrites s r a p content) :
    (run s r).files.read s.env r.manifest = .ok content.toUTF8.toList := by
  have prepared := prepare_eq_ok_iff.1 h.prepared
  obtain ⟨after, saved⟩ := h.saved
  have written : a.write s = .ok after := by
    rw [prepared.write_of_asked h.asked, h.made]
    exact mapError_eq_ok_iff.2 saved
  obtain ⟨old, read⟩ := exists_of_readScript prepared.lines
  obtain ⟨place, led, _⟩ := FileTree.read_eq_ok_iff.1 read
  rw [run_of_prepared prepared, written, writing_files h.said]
  exact FileTree.read_of_save_here saved led h.same

theorem Prepared.files_cases (prepared : Prepared s r a) :
    (run s r).files = s.files ∨
      (printed (a.log s)).2 = none ∧ a.write s = .ok (run s r).files := by
  rw [run_of_prepared prepared]
  exact writing_files_cases

/-- Any other audit leaves the script alone. -/
theorem read_run_of_not_overwrites (h : ∀ a p content, ¬ Overwrites s r a p content) :
    (run s r).files.read s.env r.manifest = s.files.read s.env r.manifest := by
  cases audited : prepare s r with
  | error stop =>
      rw [run, audited]
      rfl
  | ok a =>
      have prepared := prepare_eq_ok_iff.1 audited
      obtain same | ⟨said, written⟩ := prepared.files_cases
      · rw [same]
      cases asked : r.outputFile with
      | none =>
          rw [write, prepared.request, asked] at written
          rw [← Except.ok.inj written]
      | some p =>
          rw [prepared.write_of_asked asked] at written
          obtain ⟨content, made, saved⟩ := bind_eq_ok_iff.1 written
          have saved := mapError_eq_ok_iff.1 saved
          obtain ⟨old, read⟩ := exists_of_readScript prepared.lines
          rw [read]
          apply FileTree.read_of_save_elsewhere saved read
          intro same
          exact h a p content ⟨audited, said, asked, same, made, _, saved⟩

/-- An audit leaves its script as it was exactly if no other text is written over it. -/
theorem read_run_iff :
    (run s r).files.read s.env r.manifest = s.files.read s.env r.manifest ↔
      ∀ a p content, Overwrites s r a p content →
        s.files.read s.env r.manifest = .ok content.toUTF8.toList := by
  constructor
  · intro kept a p content lost
    exact kept.symm.trans lost.read
  · intro only
    by_cases lost : ∃ a p content, Overwrites s r a p content
    · obtain ⟨a, p, content, lost⟩ := lost
      exact lost.read.trans (only a p content lost).symm
    · apply read_run_of_not_overwrites
      intro a p content given
      exact lost ⟨a, p, content, given⟩

end Audit

/-- No run changes the script it is about but an audit that is told to write its report to the
script itself. Such a run ends as any other does, and the script then holds the report. -/
theorem run_keeps_script (env : Environment) (files : FileTree) (args : List String) :
    let after := (run env files args).files
    match prepare env files args with
    | .ok (s, .audit r) => s.env = env ∧ s.files = files ∧
        (after.read env r.manifest = files.read env r.manifest ↔
          ∀ a p content, Audit.Overwrites s r a p content →
            files.read env r.manifest = .ok content.toUTF8.toList) ∧
        ∀ a p content, Audit.Overwrites s r a p content →
          after.read env r.manifest = .ok content.toUTF8.toList
    | _ => after = files := by
  intro after
  cases prepared : prepare env files args with
  | error stop => simp only [after, run, prepared, Outcome.stopped]
  | ok pair =>
      obtain ⟨s, request⟩ := pair
      obtain ⟨general, name, rest, _, begun, _⟩ := prepare_eq_ok prepared
      obtain ⟨_, _, _, -, -, -, made⟩ := begin_eq_ok begun
      obtain rfl : s.env = env := by rw [made]
      obtain rfl : s.files = files := by rw [made]
      have performed : after = (perform s request).files := by simp only [after, run, prepared]
      rw [performed]
      cases request with
      | audit r => exact ⟨rfl, rfl, Audit.read_run_iff, fun _ _ _ lost => lost.read⟩
      | declarations _ | explain _ | help => exact perform_files fun _ => by simp

/-- A run that asks for an audit of this script with its report in this file. -/
def asksFor (manifest file : Path) : Request → Bool
  | .audit r => r.manifest = manifest && r.outputFile = some file
  | _ => false

/-- The report of this run goes to a file beside the script, which reads as before. -/
theorem run_keeps_script_beside_report :
    let env : Environment := { bindings := [("HOME", "/home")], directory := ["work"] }
    let files := (Audit.besideScript .default "api 'io.vavr:vavr:1'\n").files
    let args := ["--plain", "audit", "build.gradle", "--output-file", "new/../report.md"]
    (run env files args).files.read env ⟨"", ["build.gradle"]⟩ =
      files.read env ⟨"", ["build.gradle"]⟩ := by
  intro env files args
  have asked : ((prepare env files args).toOption.any fun pair =>
      asksFor ⟨"", ["build.gradle"]⟩ ⟨"", ["new", "..", "report.md"]⟩ pair.2) = true := by
    decide +kernel
  have apart : env.resolve ⟨"", ["new", "..", "report.md"]⟩ ≠ env.resolve ⟨"", ["build.gradle"]⟩ := by
    decide +kernel
  clear_value env files args
  obtain ⟨⟨s, request⟩, prepared, asked⟩ := exists_of_any_toOption asked
  have keeps := run_keeps_script env files args
  rw [prepared] at keeps
  cases request with
  | audit r =>
      obtain ⟨same, there⟩ := Bool.and_eq_true_iff.1 asked
      obtain ⟨rfl, -, kept, -⟩ := keeps
      rw [of_decide_eq_true same] at kept
      refine kept.2 fun a p content lost => ?_
      cases lost.asked.symm.trans (of_decide_eq_true there)
      have here := lost.same
      rw [of_decide_eq_true same] at here
      exact absurd here apart
  | declarations _ | explain _ | help => cases asked

/-- The report of this run goes to the script, as the output file is spelled in another way, and
the run ends well. -/
theorem script_lost_to_report :
    let env : Environment := { bindings := [("HOME", "/home")], directory := ["work"] }
    let files := (Audit.besideScript .default "api 'io.vavr:vavr:1'\n").files
    let after :=
      run env files ["--plain", "audit", "build.gradle", "--output-file", "new/../build.gradle"]
    after.ending = .exit 0 ∧ (after.files.read env ⟨"", ["build.gradle"]⟩).toOption ≠
      (files.read env ⟨"", ["build.gradle"]⟩).toOption := by
  decide +kernel

end DependencyAudit.Command
