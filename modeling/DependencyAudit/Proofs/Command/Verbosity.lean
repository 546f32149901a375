import DependencyAudit.Proofs.Command.Document
import DependencyAudit.Proofs.Verdict.Sound

/-!
Documents of verbose runs. What a verbose run says of an audit it says before the report and
on the same output. Only a run that is told as a whole to write JSON leaves that out; one whose
format alone is JSON puts it in front of the document.
-/
namespace DependencyAudit

/-- What is said of a verdict of an audit can always be said. -/
theorem Verdict.exists_sentence (tables : Tables) (evidence : Option (List String))
    (d : Declaration) : ∃ text, (Verdict.of tables evidence d).sentence = .ok text := by
  obtain ⟨percent, size, -, confidence, cost⟩ := figures_of tables evidence d
  have text : ∃ text, sizeText (some (.real size)) = .ok text := by
    simp only [sizeText]
    split <;> exact ⟨_, rfl⟩
  obtain ⟨text, sized⟩ := text
  refine ⟨_, bind_eq_ok_iff.2 ⟨String.ofList (intText percent) ++ "%", ?_,
    bind_eq_ok_iff.2 ⟨text, ?_, rfl⟩⟩⟩
  · rw [confidence]
    rfl
  · rw [cost, sized]
    rfl

namespace Command
open Json

/-- The same run, but verbose. -/
def Session.verbosely (s : Session) : Session :=
  { s with general := { s.general with verbose := true } }

namespace Audit
variable {s : Session} {r : AuditRequest} {a : Audit}

theorem Prepared.verbosely (prepared : Prepared s r a) : Prepared s.verbosely r a := by
  rw [← prepare_eq_ok_iff] at prepared ⊢
  exact prepared

theorem shown_ne_empty (text : String) : Console.shown text ≠ "" := by
  intro empty
  have := congrArg String.toList empty
  simp [Console.shown] at this

theorem printed_of_forall_ok {pieces : List Piece} (h : ∀ p ∈ pieces, ∃ text, p = .ok text) :
    (printed pieces).2 = none := by
  induction pieces with
  | nil => rfl
  | cons p pieces ih =>
      obtain ⟨⟨text, rfl⟩, more⟩ := List.forall_mem_cons.1 h
      exact ih more

theorem markup_cases (loud : s.general.quiet = false) (text : String) :
    (∃ c, s.markup text = .error c) ∨ ∃ said, said ≠ "" ∧ s.markup text = .ok said := by
  simp only [Session.markup, Session.console, Console.shownMarkup, loud]
  cases Console.Markup.plain s.env.emoji text with
  | error f => exact .inl ⟨_, rfl⟩
  | ok plain => exact .inr ⟨_, shown_ne_empty _, rfl⟩

/-- The first line that a verbose run prints. -/
def opening (a : Audit) : String :=
  s!"{a.verdicts.length} declarations in {a.request.manifest.name}, mode={a.basis.mode.name}"

/-- Of what a verbose run says only the first line can be refused. -/
theorem exists_log_verbosely (prepared : Prepared s r a) (json : s.general.json = false) :
    ∃ rest, a.log s.verbosely = s.markup a.opening :: rest ∧ ∀ p ∈ rest, ∃ text, p = .ok text := by
  have verbose : (s.verbosely.general.verbose && !s.verbosely.general.json) = true := by
    simp [Session.verbosely, json]
  refine ⟨_, by rw [log, if_pos verbose]; rfl, ?_⟩
  rw [prepared.verdicts, List.forall_mem_map]
  intro v hv
  obtain ⟨d, _, rfl⟩ := List.mem_map.1 hv
  obtain ⟨text, sentence⟩ := Verdict.exists_sentence s.tables a.basis.evidence? d
  rw [sentence]
  exact ⟨_, rfl⟩

theorem printed_log_verbosely (loud : s.general.quiet = false) (prepared : Prepared s r a)
    (json : s.general.json = false) :
    (∃ c, printed (a.log s.verbosely) = ("", some c)) ∨
      ∃ said, said ≠ "" ∧ printed (a.log s.verbosely) = (said, none) := by
  obtain ⟨rest, logged, whole⟩ := exists_log_verbosely prepared json
  rw [logged]
  obtain ⟨c, refused⟩ | ⟨said, nonempty, front⟩ := markup_cases loud a.opening
  · rw [refused]
    exact .inl ⟨c, rfl⟩
  · rw [front]
    have last : (printed rest).2 = none := printed_of_forall_ok whole
    refine .inr ⟨said ++ (printed rest).1, ?_, Prod.ext rfl last⟩
    exact fun empty => nonempty (String.append_eq_empty_iff.1 empty).1

/-- If all of it can be said, what a verbose run says stands in front of the output, and
nothing else of the run is changed. -/
theorem run_verbosely (silent : s.general.verbose = false) (prepared : Prepared s r a)
    (done : (run s r).ending = .exit 0) (front : (printed (a.log s.verbosely)).2 = none) :
    run s.verbosely r
      = { run s r with output := (printed (a.log s.verbosely)).1 ++ (run s r).output } := by
  have verbose : run s.verbosely r
      = .writing s.files (a.log s.verbosely) (a.write s) (a.pieces s) :=
    run_of_prepared prepared.verbosely
  have plainly : run s r = .writing s.files [] (a.write s) (a.pieces s) := by
    rw [run_of_prepared prepared, log_of_silent silent]
  rw [plainly] at done
  obtain ⟨-, ⟨written, hwrite⟩, whole, -⟩ := writing_ended done
  rw [verbose, plainly, hwrite, writing_of_whole front whole, writing_of_whole rfl whole]
  simp [printed]

theorem ending_verbosely (silent : s.general.verbose = false) (prepared : Prepared s r a)
    (done : (run s r).ending = .exit 0) (front : (printed (a.log s.verbosely)).2 = none) :
    (run s.verbosely r).ending = (run s r).ending := by
  rw [run_verbosely silent prepared done front]

/-- The output of a run that reports a document is the same when the run is verbose exactly if
the run as a whole is told to write JSON; then all of the outcome is the same and the output is
one document. Otherwise the run is refused before it prints or writes anything, or some text
stands in front of the document. -/
theorem verbose_unchanged_iff (asked : AsksDocument s r) (prepared : prepare s r = .ok a)
    (done : (run s r).ending = .exit 0) :
    ((run s.verbosely r).output = (run s r).output ↔ s.general.json = true) ∧
      (s.general.json = true → run s.verbosely r = run s r ∧
        ∃ t, Json.read (run s.verbosely r).output.toList = .ok t) ∧
      (s.general.json = false →
        ((run s.verbosely r).output = "" ∧ (run s.verbosely r).files = s.files ∧
            ∃ c, (run s.verbosely r).ending = .crash c) ∨
          ∃ said, said ≠ "" ∧
            run s.verbosely r = { run s r with output := said ++ (run s r).output }) := by
  have settled := prepare_eq_ok_iff.1 prepared
  have leaves := leavesDocument asked settled done
  have verbose : run s.verbosely r
      = .writing s.files (a.log s.verbosely) (a.write s) (a.pieces s) :=
    run_of_prepared settled.verbosely
  have kept (json : s.general.json = true) : run s.verbosely r = run s r := by
    have silent : a.log s.verbosely = [] := by
      simp [log, Session.verbosely, json]
    rw [verbose, silent, run_of_prepared settled, log_of_silent asked.silent]
  have other (json : s.general.json = false) :
      ((run s.verbosely r).output = "" ∧ (run s.verbosely r).files = s.files ∧
          ∃ c, (run s.verbosely r).ending = .crash c) ∨
        ∃ said, said ≠ "" ∧
          run s.verbosely r = { run s r with output := said ++ (run s r).output } := by
    obtain ⟨c, refused⟩ | ⟨said, nonempty, front⟩ := printed_log_verbosely asked.loud settled json
    · rw [verbose]
      simp only [Outcome.writing, Outcome.ofPieces, refused]
      exact .inl ⟨trivial, trivial, c, rfl⟩
    · refine .inr ⟨said, nonempty, ?_⟩
      rw [run_verbosely asked.silent settled done (by rw [front]), front]
  refine ⟨⟨fun same => ?_, fun json => by rw [kept json]⟩,
    fun json => ⟨kept json, _, kept json ▸ leaves.output⟩, other⟩
  by_contra json
  obtain ⟨empty, -⟩ | ⟨said, nonempty, front⟩ := other (Bool.eq_false_of_not_eq_true json)
  · have read := leaves.output
    rw [← same, empty] at read
    cases read
  · rw [front] at same
    exact nonempty (String.append_eq_right_iff.1 same)

section Scripts

def guavaScript : String :=
  "dependencies \x7b\n    implementation(\"com.google.guava:guava:33.0.0\")\n\x7d\n"

/-- An audit beside that script, in the format that is given. -/
def askedFormat (format : Option String) : AuditRequest :=
  { AuditRequest.empty with manifest := ⟨"", ["build.gradle"]⟩, format }

/-- The audit that a verbose run starts with a line about. -/
theorem exists_guavaAudit :
    let s := besideScript .default guavaScript
    ∃ a, prepare s (askedFormat (some "json")) = .ok a ∧
      (run s (askedFormat (some "json"))).ending = .exit 0 ∧
      s.markup a.opening = .ok "1 declarations in build.gradle, mode=heuristic\n" := by
  intro s
  obtain ⟨a, prepared, done, said⟩ := exists_ended (s := s) (r := askedFormat (some "json"))
    (p := fun a => decide (s.markup a.opening
      = .ok "1 declarations in build.gradle, mode=heuristic\n")) (by decide +kernel)
  exact ⟨a, prepared, done, of_decide_eq_true said⟩

/-- Behind the option for JSON a verbose run is the same run; with the format alone it is not. -/
theorem verbose_unchanged_iff_beside_script :
    let json := besideScript { General.default with json := true } guavaScript
    let plain := besideScript { General.default with plain := true } guavaScript
    run json.verbosely (askedFormat none) = run json (askedFormat none) ∧
      (run plain.verbosely (askedFormat (some "json"))).output
        ≠ (run plain (askedFormat (some "json"))).output := by
  intro json plain
  obtain ⟨a, prepared, done, -⟩ := exists_guavaAudit
  have settled := prepare_eq_ok_iff.1 prepared
  have asked : AsksDocument (besideScript .default guavaScript) (askedFormat (some "json")) :=
    ⟨rfl, rfl, .inr rfl⟩
  have asked' : AsksDocument json (askedFormat none) := ⟨rfl, rfl, .inl rfl⟩
  have asked'' : AsksDocument plain (askedFormat (some "json")) := ⟨rfl, rfl, .inr rfl⟩
  have toJson : SameTask (besideScript .default guavaScript) json (askedFormat (some "json"))
      (askedFormat none) :=
    ⟨rfl, rfl, fun _ _ => rfl, rfl, rfl, rfl, rfl, rfl, rfl⟩
  have toPlain : SameTask (besideScript .default guavaScript) plain (askedFormat (some "json"))
      (askedFormat (some "json")) :=
    ⟨rfl, rfl, fun _ _ => rfl, rfl, rfl, rfl, rfl, rfl, rfl⟩
  obtain ⟨b, prepared', done'⟩ := toJson.ended asked asked' settled done rfl rfl
  obtain ⟨c, prepared'', done''⟩ := toPlain.ended asked asked'' settled done rfl rfl
  have kept := (verbose_unchanged_iff asked' (prepare_eq_ok_iff.2 prepared') done').2.1 rfl
  have spoilt := (verbose_unchanged_iff asked'' (prepare_eq_ok_iff.2 prepared'') done'').1
  exact ⟨kept.1, fun same => Bool.false_ne_true (spoilt.1 same)⟩

/-- A script with one declaration and the format JSON: both runs end well, the plain one prints
one document, and what the verbose one prints is none. -/
theorem verbose_spoils_document :
    let s := besideScript .default guavaScript
    let r := askedFormat (some "json")
    AsksDocument s r ∧ (run s r).ending = .exit 0 ∧
      (∃ t, Json.read (run s r).output.toList = .ok t) ∧ (run s.verbosely r).ending = .exit 0 ∧
      (run s.verbosely r).output ≠ (run s r).output ∧
      ∀ t, Json.read (run s.verbosely r).output.toList ≠ .ok t := by
  intro s r
  have asked : AsksDocument s r := ⟨rfl, rfl, .inr rfl⟩
  obtain ⟨a, prepared, done, said⟩ : ∃ a, prepare s r = .ok a ∧ (run s r).ending = .exit 0 ∧
      s.markup a.opening = .ok "1 declarations in build.gradle, mode=heuristic\n" :=
    exists_guavaAudit
  have settled := prepare_eq_ok_iff.1 prepared
  have leaves := leavesDocument asked settled done
  obtain ⟨rest, logged, whole⟩ := exists_log_verbosely settled rfl
  rw [said] at logged
  clear_value s r
  have last : (printed rest).2 = none := printed_of_forall_ok whole
  have first : (printed (a.log s.verbosely)).2 = none := by rw [logged]; exact last
  have spoilt := run_verbosely asked.silent settled done first
  rw [logged] at spoilt
  have unread (t : Tree) : Json.read (run s.verbosely r).output.toList ≠ .ok t := by
    rw [spoilt]
    simp only [printed, String.toList_append, List.append_assoc]
    exact read_int_append_ne (n := 1) (by decide +kernel) rfl _ t
  refine ⟨asked, done, ⟨_, leaves.output⟩, ?_, fun same => ?_, unread⟩
  · exact (ending_verbosely asked.silent settled done first).trans done
  · have read := leaves.output
    rw [← same] at read
    exact unread _ read

end Scripts
end Audit
end Command
end DependencyAudit
