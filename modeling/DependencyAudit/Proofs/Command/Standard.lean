import DependencyAudit.Proofs.Command.Explain
import DependencyAudit.Proofs.Command.Frame
import DependencyAudit.Proofs.Command.Start
import DependencyAudit.Proofs.Report.Finite

/-!
Standard JSON of runs. Sizes that settings give are never negative, and never the float for what is
no number, but they may be infinite, or too large to be added up. What a run leaves of an audit or
of an explanation, on its output and in its file, is standard JSON exactly if the sizes are finite.
-/
namespace DependencyAudit.Command
open Json Text

/-- A run that is to be quiet leaves a document out of its output, unless that is plain. -/
def Session.mutes (s : Session) : Bool := s.general.quiet && !s.general.plain

/-- JSON of a run: on its output behind what is said before, if the run does not mute it, and in
the file that it is told to write. -/
structure LeavesJson (s : Session) (said : String) (path? : Option Path) (after : Outcome)
    (p : List Char → Prop) : Prop where
  output : ∃ text, after.output = said ++ text ∧ if s.mutes then text = "" else p text.toList
  file : ∀ path ∈ path?, ∃ content text, after.files.read s.env path = .ok content ∧
    Utf8.decode content = .ok text ∧ p text

/-- A text of JSON that is standard exactly on a condition. The word that may spoil it is the one
for infinity, never the one for what is no number. -/
structure StandardIf (condition : Prop) (text : List Char) : Prop where
  standard_iff : Standard text ↔ condition
  number : ¬ spelling.notANumber.toList <:+: outside .outer text

section Texts
variable {s : Session} {said : String} {path? : Option Path} {after : Outcome}
  {p p' : List Char → Prop} {t : Tree} {text : String} {condition : Prop}

theorem LeavesJson.imp (h : LeavesJson s said path? after p) (weaker : ∀ text, p text → p' text) :
    LeavesJson s said path? after p' where
  output := by
    obtain ⟨text, output, left⟩ := h.output
    refine ⟨text, output, ?_⟩
    split at left
    case isTrue muted => rwa [if_pos muted]
    case isFalse loud =>
      rw [if_neg loud]
      exact weaker _ left
  file path asked := by
    obtain ⟨content, text, read, decoded, left⟩ := h.file path asked
    exact ⟨content, text, read, decoded, weaker _ left⟩

theorem writes_documentText {style : Style} (keys : Writes style.keyEnd [])
    (h : documentText style t = .ok text) : Writes text.toList t.floats := by
  obtain ⟨-, rfl⟩ := documentText_eq_ok_iff.1 h
  exact .document keys t

/-- A document on the output of a run. -/
theorem writes_of_document (h : s.document t = .ok text) :
    if s.mutes then text = "" else Writes text.toList t.floats := by
  rw [Session.document] at h
  rw [Session.mutes]
  cases plain : s.general.plain with
  | true =>
      rw [if_pos plain] at h
      rw [Bool.not_true, Bool.and_false, if_neg Bool.false_ne_true]
      exact writes_documentText (.plain (by decide) (by decide)) h
  | false =>
      rw [if_neg (by simp [plain]), Session.console] at h
      cases made : documentText .console t with
      | error c =>
          rw [made] at h
          cases h
      | ok whole =>
          rw [made] at h
          cases h
          cases s.general.quiet with
          | true => rfl
          | false => exact writes_documentText (.plain (by decide) (by decide)) made

theorem standardIf_of_writes {text : List Char} {xs : List Float} (h : Writes text xs)
    (finite : (∀ x ∈ xs, x.isFinite = true) ↔ condition)
    (number : ∀ x ∈ xs, x.isNaN = false) : StandardIf condition text where
  standard_iff := h.standard_iff.trans finite
  number word := by
    obtain ⟨x, hx, notANumber⟩ := h.isNaN_iff_infix.1 word
    cases notANumber.symm.trans (number x hx)

end Texts

section Tables
variable {env : Environment} {files : FileTree} {args : List String} {s : Session}
  {request : Request}

theorem tables_of_prepare (h : prepare env files args = .ok (s, request)) :
    Tables.ofSettings s.settings = .ok s.tables := by
  obtain ⟨general, name, rest, -, begun, -⟩ := prepare_eq_ok h
  obtain ⟨_, _, _, -, -, made, rfl⟩ := begin_eq_ok begun
  exact made

theorem nonNegative_of_prepare (h : prepare env files args = .ok (s, request)) :
    s.tables.sizes.NonNegative := by
  obtain ⟨families, -, made⟩ := bind_eq_ok_iff.1 (tables_of_prepare h)
  obtain ⟨sizes, settled, made⟩ := bind_eq_ok_iff.1 made
  rw [← Except.ok.inj made]
  exact SizeTable.nonNegative_ofSettings settled

end Tables

namespace Audit
variable {s : Session} {r : AuditRequest} {a : Audit}

/-- What an audit that reports a document leaves of it. -/
theorem leavesJson (prepared : Prepared s r a) (document : a.isDocument s = true)
    (done : (run s r).ending = .exit 0) :
    LeavesJson s (printed (a.log s)).1 r.outputFile (run s r)
      fun text => Writes text (Tree.fieldFloats a.entries) := by
  have ran := run_of_prepared prepared
  rw [ran] at done
  obtain ⟨-, -, whole, output⟩ := writing_ended done
  have single : a.pieces s = [s.document (.table a.entries)] := by
    rw [pieces, if_pos document, prepared.document]
    rfl
  have saves := write_eq_of_ended done
  rw [← ran, write_of_document prepared document] at saves
  rw [← ran] at output
  constructor
  · cases made : s.document (.table a.entries) with
    | error c =>
        rw [single, made] at whole
        cases whole
    | ok text =>
        refine ⟨text, ?_, writes_of_document made⟩
        rw [output, single, made]
        simp [printed]
  · intro path asked
    rw [saved, Option.mem_def.1 asked] at saves
    obtain ⟨content, made, saves⟩ := bind_eq_ok_iff.1 saves
    have ascii := ascii_documentText rfl (by decide) made
    refine ⟨_, content.toList, FileTree.read_of_save (mapError_eq_ok_iff.1 saves), ?_,
      writes_documentText (.plain (by decide) (by decide)) made⟩
    simpa using decode_toUTF8 ascii

/-- The floats of the report, with or without a patch. -/
theorem Prepared.floats (prepared : Prepared s r a) :
    ∃ entries, a.report.entries = .ok entries ∧
      Tree.fieldFloats a.entries = Tree.fieldFloats entries := by
  obtain ⟨entries, reported, same⟩ := prepared.report
  refine ⟨entries, reported, ?_⟩
  rw [same, Tree.fieldFloats_append]
  cases r.patch <;> simp [Tree.fieldFloats, Tree.floats]

theorem Prepared.standard (nonneg : s.tables.sizes.NonNegative) (prepared : Prepared s r a)
    (document : a.isDocument s = true) (done : (run s r).ending = .exit 0) :
    LeavesJson s (printed (a.log s)).1 r.outputFile (run s r)
      (StandardIf (FiniteSizes a.verdicts a.summary)) := by
  obtain ⟨entries, reported, same⟩ := prepared.floats
  have finite := forall_floats_report (p := fun x => x.isFinite = true) prepared.verdicts
    prepared.summary reported
  have number := not_isNaN_of_report nonneg prepared.verdicts prepared.summary reported
  have sizes := finiteSizes_iff_forall (s := a.summary) prepared.verdicts
  rw [← same] at finite number
  exact (leavesJson prepared document done).imp fun text writes =>
    standardIf_of_writes writes (finite.trans sizes.symm) number

end Audit

namespace Explain
variable {s : Session} {r : ExplainRequest} {v : Verdict}

theorem exists_of_verdict (h : verdict s r = .ok v) :
    ∃ basis d, Basis.settle s r.mode r.evidence = .ok basis ∧
      v = Verdict.of s.tables basis.evidence? d := by
  obtain ⟨d, -, h⟩ := bind_eq_ok_iff.1 h
  obtain ⟨basis, settled, h⟩ := bind_eq_ok_iff.1 h
  cases h
  exact ⟨basis, d, settled, rfl⟩

/-- What an explanation leaves of its document. -/
theorem leavesJson (judged : verdict s r = .ok v) (json : s.general.json = true)
    (done : (run s r).ending = .exit 0) :
    LeavesJson s "" none (run s r) fun text => Writes text v.toTree.floats := by
  have ran : run s r = .ofPieces s.files [s.document v.toTree] := by
    rw [run, judged]
    exact congrArg (Outcome.ofPieces s.files) (if_pos json)
  rw [ran] at done ⊢
  have whole := ending_ofPieces_iff.1 done
  refine ⟨?_, fun path asked => absurd asked (Option.not_mem_none path)⟩
  cases made : s.document v.toTree with
  | error c =>
      rw [made] at whole
      cases whole
  | ok text =>
      refine ⟨text, ?_, writes_of_document made⟩
      simp [Outcome.ofPieces, printed]

theorem standard (nonneg : s.tables.sizes.NonNegative) (judged : verdict s r = .ok v)
    (json : s.general.json = true) (done : (run s r).ending = .exit 0) :
    LeavesJson s "" none (run s r) (StandardIf (FiniteSize v.size)) := by
  have left := leavesJson judged json done
  obtain ⟨basis, d, -, rfl⟩ := exists_of_verdict judged
  have floats := floats_verdict_of s.tables basis.evidence? d
  refine left.imp fun text writes => ?_
  rw [floats] at writes
  refine standardIf_of_writes writes ?_ ?_
  · rw [List.forall_mem_singleton]
    exact (finiteSize_of_iff _ _ d).symm
  · rw [List.forall_mem_singleton]
    exact (isSize_of_zero_le (Verdict.megabytes_nonneg nonneg _ d)).isNaN

end Explain

section Modes
variable {tables : Tables} {evidence : Option (List String)} {d : Declaration} {basis : Basis}

theorem Basis.evidence?_eq_none (h : basis.mode = .heuristic) : basis.evidence? = none := by
  cases basis with
  | names => rfl
  | evidence resolved path => cases h

theorem evidence_eq_none_of_mode (h : (Verdict.of tables evidence d).mode = .heuristic) :
    evidence = none := by
  cases evidence with
  | none => rfl
  | some resolved => cases h

end Modes

section Runs
variable {env : Environment} {files : FileTree} {args : List String} {s : Session}
  {request : Request}

/-- JSON that a run leaves is standard exactly if all sizes that it reports are finite; the word
for infinity is the only one that may spoil it. The sizes of an audit, in its results, its edits
and its totals, are finite exactly if they add up to a finite size. This is so without evidence,
and with evidence if every size that is looked up is far enough below the end of the floats, however
many there are to be added. -/
theorem standard_iff_finite (prepared : prepare env files args = .ok (s, request))
    (done : (run env files args).ending = .exit 0) :
    (∀ r a, request = .audit r → Audit.prepare s r = .ok a → a.isDocument s = true →
      LeavesJson s (printed (a.log s)).1 r.outputFile (run env files args)
          (StandardIf (FiniteSizes a.verdicts a.summary)) ∧
        (FiniteSizes a.verdicts a.summary ↔ (megabytesOf a.verdicts).isFinite = true) ∧
        (a.basis.mode = .heuristic ∨ (∀ entry ∈ s.tables.sizes, Modest entry.2) →
          FiniteSizes a.verdicts a.summary)) ∧
    ∀ r v, request = .explain r → Explain.verdict s r = .ok v → s.general.json = true →
      LeavesJson s "" none (run env files args) (StandardIf (FiniteSize v.size)) ∧
        (v.mode = .heuristic ∨ (∀ entry ∈ s.tables.sizes, Modest entry.2) →
          FiniteSize v.size) := by
  have nonneg := nonNegative_of_prepare prepared
  have performed : run env files args = perform s request := by simp only [run, prepared]
  rw [performed] at done ⊢
  refine ⟨fun r a asked settled document => ?_, fun r v asked judged json => ?_⟩
  · subst asked
    have settled := Audit.prepare_eq_ok_iff.1 settled
    have sum := finiteSizes_iff nonneg settled.verdicts settled.summary
    refine ⟨settled.standard nonneg document done, sum, fun modest => sum.2 ?_⟩
    exact isFinite_megabytesOf settled.verdicts (modest.imp_left Basis.evidence?_eq_none)
  · subst asked
    refine ⟨Explain.standard nonneg judged json done, fun modest => ?_⟩
    obtain ⟨basis, d, -, rfl⟩ := Explain.exists_of_verdict judged
    obtain ⟨_, amount, -⟩ :=
      Verdict.modest_megabytes (modest.imp_left evidence_eq_none_of_mode) d
    exact (finiteSize_of_iff _ _ d).2 amount.isFinite

section Files

/-- A script and its evidence, beside settings in JSON. -/
def besideSizes (settings : String) : FileTree :=
  besideSettings "c.json" settings.toList ++
    [(["work", "build.gradle"], .file ("api 'io.vavr:vavr:1'\napi 'g:guava:1'\n".toList.map
      fun c => UInt8.ofNat c.toNat)),
    (["work", "r.txt"], .file ("g:guava:1\n".toList.map fun c => UInt8.ofNat c.toNat))]

/-- A size from the settings in an audit on evidence, printed and written. -/
theorem standard_iff_finite_of_size :
    let files := besideSizes "\x7b\"classification\": \x7b\"sizes\": \x7b\"vavr\": 7.5\x7d\x7d\x7d"
    let args := ["--json", "--config", "c.json", "audit", "build.gradle", "--evidence", "r.txt",
      "--output-file", "report.json"]
    ∃ s r a, prepare homely files args = .ok (s, .audit r) ∧ Audit.prepare s r = .ok a ∧
      a.basis.mode = .evidence ∧
      LeavesJson s "" (some ⟨"", ["report.json"]⟩) (run homely files args) Standard := by
  intro files args
  have found : ((auditOf? homely files args).any fun x =>
      decide (x.2.2.endsWell x.1 = true ∧ x.2.2.isDocument x.1 = true ∧
        x.2.2.basis.mode = .evidence ∧ x.1.general.verbose = false ∧
        x.2.1.outputFile = some ⟨"", ["report.json"]⟩ ∧
        x.1.tables.sizes.all fun entry => hasModestExponent entry.2)) = true := by
    decide +kernel
  clear_value files args
  obtain ⟨s, r, a, prepared, settled, holds⟩ := exists_of_auditOf? found
  obtain ⟨whole, document, evidence, silent, file, modest⟩ := of_decide_eq_true holds
  have done : (run homely files args).ending = .exit 0 := by
    simp only [run, prepared, perform, Audit.run, settled]
    exact of_decide_eq_true whole
  obtain ⟨left, -, finite⟩ :=
    (standard_iff_finite prepared done).1 r a rfl settled document
  have finite := finite <| .inr fun entry member =>
    modest_of_exponent (List.all_eq_true.1 modest entry member)
  rw [Audit.log_of_silent silent, file] at left
  exact ⟨s, r, a, prepared, settled, evidence,
    left.imp fun _ standard => standard.standard_iff.2 finite⟩

/-- What a command line explains, if it settles an explanation at all. -/
def explained? (env : Environment) (files : FileTree) (args : List String) :
    Option (Session × Verdict) :=
  match prepare env files args with
  | .ok (s, .explain r) => (Explain.verdict s r).toOption.map fun v => (s, v)
  | _ => none

theorem exists_of_explained? {p : Session × Verdict → Bool}
    (h : ((explained? env files args).any p) = true) :
    ∃ s r v, prepare env files args = .ok (s, .explain r) ∧ Explain.verdict s r = .ok v ∧
      p (s, v) = true := by
  unfold explained? at h
  split at h
  case h_1 s r asked =>
      rw [Option.any_map] at h
      obtain ⟨v, judged, holds⟩ := exists_of_any_toOption h
      exact ⟨s, r, v, asked, judged, holds⟩
  case h_2 => cases h

/-- Settings with an infinite size are loaded, and an explanation of what it fits is printed with
the word for it. -/
theorem infinite_size_printed :
    let files := besideSizes "\x7b\"classification\": \x7b\"sizes\": \x7b\"guava\": Infinity\x7d\x7d\x7d"
    let args := ["--json", "--config", "c.json", "explain", "g:guava:1", "--evidence", "r.txt"]
    (run homely files args).ending = .exit 0 ∧ ¬ Standard (run homely files args).output.toList := by
  intro files args
  have done : (run homely files args).ending = .exit 0 := by decide +kernel
  have found : ((explained? homely files args).any fun x =>
      decide (x.1.general.json = true ∧ x.1.mutes = false ∧
        x.2.size = some (.real (infinityOf false)))) = true := by
    decide +kernel
  clear_value files args
  refine ⟨done, fun standard => ?_⟩
  obtain ⟨s, r, v, prepared, judged, holds⟩ := exists_of_explained? found
  obtain ⟨json, loud, size⟩ := of_decide_eq_true holds
  have performed : run homely files args = Explain.run s r := by
    simp only [run, prepared, perform]
  rw [performed] at done standard
  obtain ⟨text, output, left⟩ :=
    (Explain.standard (nonNegative_of_prepare prepared) judged json done).output
  rw [loud, if_neg Bool.false_ne_true] at left
  rw [output, String.empty_append] at standard
  obtain ⟨x, same, finite⟩ := left.standard_iff.1 standard
  cases size.symm.trans same
  cases finite.symm.trans isFinite_infinity

end Files
end Runs
end DependencyAudit.Command
