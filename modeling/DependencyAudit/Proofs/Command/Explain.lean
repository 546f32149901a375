import DependencyAudit.Proofs.Command.Audit
import DependencyAudit.Proofs.Command.Request
import DependencyAudit.Proofs.Declaration.Provenance
import DependencyAudit.Proofs.Text.Lines
import DependencyAudit.Proofs.Verdict.Sound

/-!
Verdicts of an audit, explained one by one. A coordinate is judged alone as it is judged in
its script, if it can be given at all: an explanation takes a coordinate of three parts, and
a script may declare a version with colons in it.
-/
namespace DependencyAudit

namespace Verdict

/-- The same verdict on another declaration. -/
def about (d : Declaration) (v : Verdict) : Verdict := { v with declaration := d }

/-- A verdict hangs on the coordinate and the kind, not on where they were read. -/
theorem of_about (tables : Tables) (evidence : Option (List String)) {d e : Declaration}
    (coordinate : e.coordinate = d.coordinate) (kind : e.kind = d.kind) :
    Verdict.of tables evidence e = (Verdict.of tables evidence d).about e := by
  have rule : Rule.of tables.families e = Rule.of tables.families d := by
    simp only [Rule.of, coordinate, kind]
  cases evidence with
  | none => simp only [Verdict.of, byName, about, rule]
  | some resolved => simp only [Verdict.of, byEvidence, about, rule, coordinate, kind]

/-- No verdict that stands on no line has a number in it that is too long to be written. -/
theorem isLong_of {tables : Tables} {evidence : Option (List String)} {d : Declaration}
    (line : d.line = 0) : (Verdict.of tables evidence d).toTree.isLong = false := by
  have short {n : Nat} (h : n ≤ 100) : n < 10 ^ Reading.digitLimit :=
    calc n < 10 ^ 3 := by omega
      _ ≤ 10 ^ Reading.digitLimit := Nat.pow_le_pow_right (by decide) (by decide)
  obtain ⟨percent, size, small, confidence, cost⟩ := figures_of tables evidence d
  simp only [toTree, entries, Declaration.entries, declaration_of, line, confidence, cost]
  cases (Verdict.of tables evidence d).recommendation <;>
    simp [Tree.isLong, Tree.anyEntryLong, Tree.ofOption, Number.toTree, Scalar.isLong, short small]

end Verdict

namespace Command.Explain
variable {s : Session} {r : ExplainRequest} {c : Coordinate} {q : Char} {literal : List Char}

theorem coordinate?_text (h : Literal c literal) :
    coordinate? c.text = if ':' ∈ c.version.toList then none else some c := by
  cases h with
  | quoted _ group artifact version =>
      have pieces : Text.splitAtEach ':' c.text.toList =
          c.group.toList :: c.artifact.toList :: Text.splitAtEach ':' c.version.toList := by
        rw [Coordinate.toList_text, Text.splitAtEach_append, Text.splitAtEach_append,
          Text.splitAtEach_of_not_mem group.colon_not_mem,
          Text.splitAtEach_of_not_mem artifact.colon_not_mem]
        rfl
      rw [coordinate?, pieces]
      split_ifs with colon
      · have more := Text.two_le_length_splitAtEach colon
        match Text.splitAtEach ':' c.version.toList, more with
        | first :: second :: rest, _ => rfl
      · have filled {part : String} (h : part.toList ≠ []) : part ≠ "" := by
          rintro rfl
          exact h rfl
        rw [Text.splitAtEach_of_not_mem colon]
        simp [filled group.1, filled artifact.1, filled version.1]

theorem verdict_eq {basis : Basis} {kind : Kind} (declared : Literal c literal)
    (settled : Basis.settle s r.mode r.evidence = .ok basis) (coordinate : r.coordinate = c.text)
    (named : r.kind = kind.name) :
    verdict s r = if ':' ∈ c.version.toList then .error (.bad .coordinate)
      else .ok (Verdict.of s.tables basis.evidence? ⟨c, 0, c.text, kind⟩) := by
  rw [verdict, declaration, coordinate, coordinate?_text declared, named, Kind.ofName?_name]
  split_ifs
  · rfl
  · refine bind_eq_ok_iff.2 ⟨_, rfl, bind_eq_ok_iff.2 ⟨basis, settled, rfl⟩⟩

/-- A verdict that can be written is shown whole to a reader that is a program. -/
theorem exit_of_machine {files : FileTree} {v : Verdict} (short : v.toTree.isLong = false)
    (machine : s.general.json = true ∨ s.general.plain = true) :
    (Outcome.ofPieces files (pieces s v)).ending = .exit 0 := by
  rw [ending_ofPieces_iff, pieces]
  split_ifs with json plain
  · simp only [Session.document, documentText, short, Session.console, Bool.false_eq_true, if_false]
    split_ifs <;> rfl
  · induction v.entries with
    | nil => rfl
    | cons entry rest ih => exact ih
  · simp_all

end Command.Explain

namespace Command
variable {env : Environment} {files : FileTree} {front args : List String}
  {options : List GeneralOption} {s : Session} {r : AuditRequest} {a : Audit}

theorem isOption_eq_false {s : List Char} (h : s.head? ≠ some '-') :
    Options.isOption s = false := by
  simp [Options.isOption, h]

/-- Behind the options of an audit a coordinate is explained in the session of the audit. -/
theorem prepare_explain {evidence : Option String} {coordinate : String}
    (general : generalOptions.read front = .ok (options, []))
    (asked : prepare env files (front ++ "audit" :: args) = .ok (s, .audit r))
    (same : r.evidence = evidence.map Path.ofString) (dash : coordinate.toList.head? ≠ some '-')
    (kind : String) :
    s.files = files ∧
      prepare env files (front ++ "explain" ::
          Request.explainArguments coordinate kind r.mode evidence) =
        .ok (s, .explain ⟨coordinate, kind, evidence.map Path.ofString, r.mode⟩) := by
  obtain ⟨settled, hsettled, awake, begun, request⟩ := (prepare_append_iff general rfl).1 asked
  have checked := Request.checkPaths_evidence request
  rw [same] at checked
  have ends : coordinate ≠ "--" := by
    intro h
    rw [h] at dash
    exact dash rfl
  obtain ⟨_, _, _, -, -, -, made⟩ := begin_eq_ok begun
  exact ⟨by rw [made], (prepare_append_iff general rfl).2
    ⟨settled, hsettled, awake, begun,
      Request.ofArguments_explain ends (isOption_eq_false dash) checked⟩⟩

/-- Each verdict of an audit is explained behind the same options with its coordinate, its
kind and the audit's mode and evidence. Without a colon in the version the explanation is
the verdict of the audit on a declaration that stands on no line, and is shown whole to a
program; with one the coordinate is refused. -/
theorem explain_agrees {evidence : Option String}
    (general : generalOptions.read front = .ok (options, []))
    (asked : prepare env files (front ++ "audit" :: args) = .ok (s, .audit r))
    (same : r.evidence = evidence.map Path.ofString) (prepared : Audit.prepare s r = .ok a) :
    ∀ v ∈ a.verdicts, v.coordinate.toList.head? ≠ some '-' →
      let explained := run env files (front ++ "explain" ::
        Request.explainArguments v.coordinate v.declaration.kind.name r.mode evidence)
      (':' ∉ v.declaration.coordinate.version.toList →
        let alone : Declaration :=
          ⟨v.declaration.coordinate, 0, v.coordinate, v.declaration.kind⟩
        explained = .ofPieces files (Explain.pieces s (v.about alone)) ∧
          (s.general.json = true ∨ s.general.plain = true → explained.ending = .exit 0)) ∧
      (':' ∈ v.declaration.coordinate.version.toList →
        explained = .stopped files (.bad .coordinate)) := by
  intro v hv dash explained
  let q : ExplainRequest :=
    ⟨v.coordinate, v.declaration.kind.name, evidence.map Path.ofString, r.mode⟩
  obtain ⟨begun, ready⟩ := prepare_explain general asked same dash v.declaration.kind.name
  have ran : explained = Explain.run s q := by
    simp only [explained, run, ready, perform, q]
  have basis : Basis.settle s q.mode q.evidence = .ok a.basis := by
    rw [← (Audit.prepare_eq_ok_iff.1 prepared).basis, same]
  have judged := (Audit.prepare_eq_ok_iff.1 prepared).verdicts
  rw [judged] at hv
  obtain ⟨d, hd, rfl⟩ := List.mem_map.1 hv
  obtain ⟨literal, written⟩ := Declaration.exists_literal hd
  let e : Declaration := ⟨d.coordinate, 0, d.coordinate.text, d.kind⟩
  have verdict : Explain.verdict s q = if ':' ∈ d.coordinate.version.toList then
      .error (.bad .coordinate) else .ok ((Verdict.of s.tables a.basis.evidence? d).about e) := by
    rw [← Verdict.of_about _ _ (d := d) (e := e) rfl rfl]
    refine Explain.verdict_eq written basis ?_ ?_
    · simp only [q, Verdict.coordinate, Verdict.declaration_of]
    · simp only [q, Verdict.declaration_of]
  rw [ran, Explain.run, begun, verdict]
  simp only [Verdict.coordinate, Verdict.declaration_of]
  constructor
  · intro plain
    have short : ((Verdict.of s.tables a.basis.evidence? d).about e).toTree.isLong = false := by
      rw [← Verdict.of_about _ _ (d := d) (e := e) rfl rfl]
      exact Verdict.isLong_of rfl
    rw [if_neg plain]
    exact ⟨rfl, Explain.exit_of_machine short⟩
  · intro colon
    rw [if_pos colon]

section Scripts

def homely : Environment := { bindings := [("HOME", "/home")], directory := ["work"] }

/-- A script of two lines beside which nothing else is found. -/
def twoFiles : FileTree :=
  [(["work"], .directory), (["work", "build.gradle"],
    .file ("api 'g:a:1'\nksp 'g:a:1:jdk8'\n".toList.map fun c => UInt8.ofNat c.toNat))]

/-- What a command line audits, if it settles an audit at all. -/
def auditOf? (env : Environment) (files : FileTree) (args : List String) :
    Option (Session × AuditRequest × Audit) :=
  match prepare env files args with
  | .ok (s, .audit r) => (Audit.prepare s r).toOption.map fun a => (s, r, a)
  | _ => none

theorem exists_of_auditOf? {p : Session × AuditRequest × Audit → Bool}
    (h : ((auditOf? env files args).any p) = true) :
    ∃ s r a, prepare env files args = .ok (s, .audit r) ∧ Audit.prepare s r = .ok a ∧
      p (s, r, a) = true := by
  unfold auditOf? at h
  split at h
  case h_1 s r asked =>
      rw [Option.any_map] at h
      obtain ⟨a, prepared, holds⟩ := exists_of_any_toOption h
      exact ⟨s, r, a, asked, prepared, holds⟩
  case h_2 => cases h

/-- Beside that script an audit ends well, with a verdict on each of the two lines. -/
theorem exists_audited :
    ∃ s r a, prepare homely twoFiles ["--json", "audit", "build.gradle"] = .ok (s, .audit r) ∧
      Audit.prepare s r = .ok a ∧ a.endsWell s = true ∧ s.general.json = true ∧
      r.evidence = none ∧ r.mode = none ∧ ∃ v ∈ a.verdicts, ∃ w ∈ a.verdicts,
        v.declaration = ⟨⟨"g", "a", "1"⟩, 1, "api 'g:a:1'", .api⟩ ∧
        w.declaration = ⟨⟨"g", "a", "1:jdk8"⟩, 2, "ksp 'g:a:1:jdk8'", .annotationProcessor⟩ := by
  have found : ((auditOf? homely twoFiles ["--json", "audit", "build.gradle"]).any fun x =>
      decide (x.2.2.endsWell x.1 = true ∧ x.1.general.json = true ∧ x.2.1.evidence = none ∧
        x.2.1.mode = none ∧ ∃ v ∈ x.2.2.verdicts, ∃ w ∈ x.2.2.verdicts,
          v.declaration = ⟨⟨"g", "a", "1"⟩, 1, "api 'g:a:1'", .api⟩ ∧
          w.declaration = ⟨⟨"g", "a", "1:jdk8"⟩, 2, "ksp 'g:a:1:jdk8'", .annotationProcessor⟩)) =
      true := by decide +kernel
  obtain ⟨s, r, a, asked, prepared, holds⟩ := exists_of_auditOf? found
  exact ⟨s, r, a, asked, prepared, of_decide_eq_true holds⟩

/-- The first declaration is explained, the second has a colon in its version. -/
theorem explain_agrees_of_two :
    let explained (coordinate kind : String) :=
      run homely twoFiles ["--json", "explain", coordinate, "--kind", kind]
    ∃ s r a, prepare homely twoFiles ["--json", "audit", "build.gradle"] = .ok (s, .audit r) ∧
      Audit.prepare s r = .ok a ∧
      (∃ v ∈ a.verdicts, v.coordinate = "g:a:1" ∧
        (explained "g:a:1" "api").ending = .exit 0) ∧
      ∃ v ∈ a.verdicts, v.coordinate = "g:a:1:jdk8" ∧
        explained "g:a:1:jdk8" "annotationProcessor" = .stopped twoFiles (.bad .coordinate) := by
  intro explained
  obtain ⟨s, r, a, asked, prepared, -, json, evidence, mode, v, hv, w, hw, first, second⟩ :=
    exists_audited
  have general : generalOptions.read ["--json"] = .ok ([.json], []) := rfl
  have same : r.evidence = (none : Option String).map Path.ofString := evidence
  have explain := explain_agrees general asked same prepared
  have coordinate : v.coordinate = "g:a:1" := by
    rw [Verdict.coordinate, first]
    decide
  have coordinate' : w.coordinate = "g:a:1:jdk8" := by
    rw [Verdict.coordinate, second]
    decide
  refine ⟨s, r, a, asked, prepared, ⟨v, hv, coordinate, ?_⟩, ⟨w, hw, coordinate', ?_⟩⟩
  · have whole := explain v hv (by rw [coordinate]; decide)
    rw [coordinate, first, mode] at whole
    exact (whole.1 (by decide)).2 (.inl json)
  · have refused := explain w hw (by rw [coordinate']; decide)
    rw [coordinate', second, mode] at refused
    exact refused.2 (by decide)

/-- An audit that ends well and has a result whose coordinate is refused. -/
theorem explain_refuses_colon_in_version :
    (run homely twoFiles ["--json", "audit", "build.gradle"]).ending = .exit 0 ∧
      (∃ s r a, prepare homely twoFiles ["--json", "audit", "build.gradle"] = .ok (s, .audit r) ∧
        Audit.prepare s r = .ok a ∧ ∃ v ∈ a.verdicts, v.coordinate = "g:a:1:jdk8" ∧
          v.declaration.kind = .annotationProcessor) ∧
      (run homely twoFiles ["--json", "explain", "g:a:1:jdk8", "--kind",
        "annotationProcessor"]).ending = .usage (.value .coordinate) := by
  obtain ⟨s, r, a, asked, prepared, ended, -, -, -, -, -, w, hw, -, second⟩ := exists_audited
  refine ⟨?_, ⟨s, r, a, asked, prepared, w, hw, ?_, by rw [second]⟩, ?_⟩
  · simp only [run, asked, perform]
    rw [Audit.run_of_prepared (Audit.prepare_eq_ok_iff.1 prepared)]
    exact of_decide_eq_true ended
  · rw [Verdict.coordinate, second]
    decide
  · decide +kernel

end Scripts
end Command
end DependencyAudit
