import DependencyAudit.Proofs.Command.PrintedPatch
import DependencyAudit.Proofs.Files.Save
import DependencyAudit.Proofs.Json.Ascii
import DependencyAudit.Proofs.Report.Payload

/-!
Audits that are reported as documents. However a run is told to report a document, and
wherever the document goes, it reads back as the same report: the styles differ in how they
set entries apart and in what they escape, and neither is left in what is read.
-/
namespace DependencyAudit.Command
open Json Text

section Texts
variable {style : Json.Style} {t : Tree} {text : String}

theorem documentText_eq_ok_iff :
    documentText style t = .ok text ↔ t.isLong = false ∧ text = Json.write style t ++ "\n" := by
  rw [documentText]
  cases t.isLong with
  | true => exact ⟨nofun, nofun⟩
  | false =>
      rw [if_neg Bool.false_ne_true, Except.ok.injEq, eq_comm]
      exact (and_iff_right rfl).symm

theorem toList_write (style : Json.Style) (t : Tree) :
    (Json.write style t ++ "\n").toList = style.render 0 t ++ ['\n'] := by
  simp [Json.write]

theorem read_documentText (spaced : style.Spaced) (fits : Fits nestingLimit t)
    (h : documentText style t = .ok text) : Json.read text.toList = .ok t := by
  obtain ⟨short, rfl⟩ := documentText_eq_ok_iff.1 h
  rw [toList_write]
  exact read_render spaced fits short

theorem ascii_documentText (escapes : style.asciiOnly = true) (keys : Ascii style.keyEnd)
    (h : documentText style t = .ok text) : Ascii text.toList := by
  obtain ⟨_, rfl⟩ := documentText_eq_ok_iff.1 h
  rw [toList_write]
  exact ascii_append_iff.2 ⟨ascii_render escapes keys 0 t, by decide⟩

theorem spaced_file : Json.Style.file.Spaced := ⟨[' '], rfl, by simp [isSpace]⟩

theorem spaced_console : Json.Style.console.Spaced := ⟨[' '], rfl, by simp [isSpace]⟩

theorem spaced_compact : Json.Style.compact.Spaced := ⟨[], rfl, nofun⟩

end Texts

namespace Audit
variable {s s' : Session} {r r' : AuditRequest} {a : Audit}

theorem Prepared.report (prepared : Prepared s r a) :
    ∃ entries, a.report.entries = .ok entries ∧
      a.entries = entries ++ if r.patch then [("patch", .text a.patch)] else [] := by
  refine ⟨_, bind_eq_ok_iff.2 ⟨a.summary, prepared.summary, rfl⟩, ?_⟩
  rw [← prepared.request]
  rfl

/-- JSON has a form for the report of an audit, the patch included. -/
theorem Prepared.fits (prepared : Prepared s r a) : Fits nestingLimit (.table a.entries) := by
  obtain ⟨entries, reported, same⟩ := prepared.report
  obtain ⟨distinct, other, each⟩ := fits_report 987 reported
  rw [same]
  cases r.patch with
  | false =>
      rw [if_neg Bool.false_ne_true, List.append_nil]
      exact .table distinct each
  | true =>
      rw [if_pos rfl]
      refine .table ?_ (List.forall_mem_append.2 ⟨each, by simp [Fits.text]⟩)
      rw [Fields.keys, List.map_append, List.nodup_append]
      refine ⟨distinct, List.nodup_singleton _, ?_⟩
      rintro key old _ new rfl
      obtain rfl : key = "patch" := List.mem_singleton.1 new
      exact other old

/-- A run without extra words that is told to report a document. -/
structure AsksDocument (s : Session) (r : AuditRequest) : Prop where
  silent : s.general.verbose = false
  loud : s.general.quiet = false
  document : s.general.json = true ∨ s.chosen r.format "report" "output_format" "table" = "json"

/-- The style of a document on the output of a run. -/
def outputStyle (s : Session) : Json.Style :=
  if s.general.plain then .compact else .console

theorem AsksDocument.isDocument (asked : AsksDocument s r) (prepared : Prepared s r a) :
    a.isDocument s = true := by
  rw [Audit.isDocument, Bool.or_eq_true, decide_eq_true_eq]
  refine asked.document.imp_right fun named => ?_
  have format := prepared.format
  rw [named] at format
  exact (Option.some.inj format).symm

theorem document_eq (loud : s.general.quiet = false) (t : Tree) :
    s.document t = documentText (outputStyle s) t := by
  have kept (p : Piece) : s.console p = p := by
    cases p <;> simp [Session.console, loud, Except.map]
  rw [Session.document, outputStyle, kept]
  split <;> rfl

theorem pieces_of_document (loud : s.general.quiet = false) (prepared : Prepared s r a)
    (document : a.isDocument s = true) :
    a.pieces s = [documentText (outputStyle s) (.table a.entries)] := by
  rw [pieces, if_pos document, prepared.document]
  exact congrArg (fun p => [p]) (document_eq loud _)

/-- The files as they are after a document was written where the run was told to. -/
def saved (s : Session) (r : AuditRequest) (t : Tree) : Except Crash FileTree :=
  match r.outputFile with
  | none => .ok s.files
  | some path => do
    let content ← documentText .file t
    (s.files.save s.env path content).mapError .file

theorem write_of_document (prepared : Prepared s r a) (document : a.isDocument s = true) :
    a.write s = saved s r (.table a.entries) := by
  have contents : a.content s = documentText .file (.table a.entries) := by
    rw [content, if_pos document, prepared.document]
    rfl
  unfold write saved
  rw [prepared.request]
  cases r.outputFile with
  | none => rfl
  | some path => exact congrArg (· >>= _) contents

theorem log_of_silent (silent : s.general.verbose = false) : a.log s = [] := by
  simp [log, silent]

/-- What a run that is asked for a document comes to. -/
theorem run_of_document (asked : AsksDocument s r) (prepared : Prepared s r a) :
    run s r = .writing s.files [] (saved s r (.table a.entries))
      [documentText (outputStyle s) (.table a.entries)] := by
  have document := asked.isDocument prepared
  rw [run_of_prepared prepared, log_of_silent asked.silent, write_of_document prepared document,
    pieces_of_document asked.loud prepared document]

/-- A run that is asked for a document ends well exactly if the document can be written, in
its file and on its output. -/
theorem ending_of_document_iff (asked : AsksDocument s r) (prepared : Prepared s r a) :
    (run s r).ending = .exit 0 ↔
      (Tree.table a.entries).isLong = false ∧
        ∃ files, saved s r (.table a.entries) = .ok files := by
  rw [run_of_document asked prepared]
  constructor
  · intro done
    obtain ⟨-, written, whole, -⟩ := writing_ended done
    cases text : documentText (outputStyle s) (.table a.entries) with
    | error c => simp [text, printed] at whole
    | ok body => exact ⟨(documentText_eq_ok_iff.1 text).1, written⟩
  · rintro ⟨short, files, written⟩
    have text : documentText (outputStyle s) (.table a.entries) = .ok _ :=
      documentText_eq_ok_iff.2 ⟨short, rfl⟩
    rw [written, text, writing_of_whole rfl rfl]

theorem exists_of_document_ended (asked : AsksDocument s r) (prepared : Prepared s r a)
    (done : (run s r).ending = .exit 0) :
    documentText (outputStyle s) (.table a.entries) = .ok (run s r).output ∧
      saved s r (.table a.entries) = .ok (run s r).files := by
  obtain ⟨short, files, written⟩ := (ending_of_document_iff asked prepared).1 done
  have text : documentText (outputStyle s) (.table a.entries) = .ok _ :=
    documentText_eq_ok_iff.2 ⟨short, rfl⟩
  rw [run_of_document asked prepared, written, text, writing_of_whole rfl rfl]
  simp [printed]

/-- What a run leaves is one document: on its output, and in its file if it is to write one.
Plain output is ASCII, as is the file. -/
structure LeavesDocument (s : Session) (r : AuditRequest) (t : Tree) : Prop where
  output : Json.read (run s r).output.toList = .ok t
  plain : s.general.plain = true → Ascii (run s r).output.toList
  file : ∀ path ∈ r.outputFile, ∃ content text,
    (run s r).files.read s.env path = .ok content ∧ (∀ b ∈ content, b < 0x80) ∧
      Utf8.decode content = .ok text ∧ Json.read text = .ok t

theorem leavesDocument (asked : AsksDocument s r) (prepared : Prepared s r a)
    (done : (run s r).ending = .exit 0) : LeavesDocument s r (.table a.entries) := by
  obtain ⟨text, written⟩ := exists_of_document_ended asked prepared done
  refine ⟨read_documentText ?_ prepared.fits text, fun plain => ?_, fun path hpath => ?_⟩
  · unfold outputStyle
    split
    · exact spaced_compact
    · exact spaced_console
  · rw [outputStyle, if_pos plain] at text
    exact ascii_documentText rfl (by decide) text
  · rw [saved, Option.mem_def.1 hpath] at written
    obtain ⟨content, text, written⟩ := bind_eq_ok_iff.1 written
    have ascii := ascii_documentText rfl (by decide) text
    refine ⟨_, content.toList, FileTree.read_of_save (mapError_eq_ok_iff.1 written), ?_, ?_,
      read_documentText spaced_file prepared.fits text⟩
    · simpa using lt_of_mem_toUTF8 ascii
    · simpa using decode_toUTF8 ascii

/-- Two audits of one script on one basis. Their settings may differ in what they say of
reports, and the runs in how they report. -/
structure SameTask (s s' : Session) (r r' : AuditRequest) : Prop where
  env : s'.env = s.env
  files : s'.files = s.files
  settings : ∀ key, key ≠ "report" → Fields.find? key s'.settings = Fields.find? key s.settings
  tables : Tables.ofSettings s.settings = .ok s.tables
  tables' : Tables.ofSettings s'.settings = .ok s'.tables
  manifest : r'.manifest = r.manifest
  mode : r'.mode = r.mode
  evidence : r'.evidence = r.evidence
  patch : r'.patch = r.patch

theorem SameTask.tables_eq (task : SameTask s s' r r') : s'.tables = s.tables := by
  have part : s'.settings.part "classification" = s.settings.part "classification" := by
    rw [Fields.part, Fields.part, task.settings _ (by decide)]
  have same : Tables.ofSettings s'.settings = Tables.ofSettings s.settings := by
    simp only [Tables.ofSettings, Families.ofSettings, SizeTable.ofSettings, part]
  exact Except.ok.inj (task.tables'.symm.trans (same.trans task.tables))

theorem SameTask.settle_eq (task : SameTask s s' r r') :
    Basis.settle s' r'.mode r'.evidence = Basis.settle s r.mode r.evidence := by
  have chosen : s'.chosen r'.mode "classification" "mode" "auto"
      = s.chosen r.mode "classification" "mode" "auto" := by
    simp only [Session.chosen, Session.settingText, Session.setting?, Tree.at?, task.mode,
      task.settings "classification" (by decide)]
  have path : Settings.evidencePath s.env s'.settings r'.evidence
      = Settings.evidencePath s.env s.settings r.evidence := by
    simp only [Settings.evidencePath, Fields.part, task.evidence,
      task.settings "evidence" (by decide)]
  simp only [Basis.settle, chosen, path, task.files, task.env]

/-- One script on one basis is one audit, but for how it is reported. -/
theorem SameTask.prepared (task : SameTask s s' r r') (prepared : Prepared s r a) {f : Format}
    (named : Format.ofName? (s'.chosen r'.format "report" "output_format" "table") = some f) :
    ∃ a', Prepared s' r' a' ∧ a'.entries = a.entries := by
  let showAll := r'.showAll.getD (((s'.setting? "report" "show_all").map Tree.isGiven).getD true)
  refine ⟨{ a with request := r', format := f, showAll }, ⟨rfl, named, rfl, ?_, ?_, ?_, ?_⟩, ?_⟩
  · rw [Session.readScript, task.files, task.env, task.manifest]
    exact prepared.lines
  · exact task.settle_eq.trans prepared.basis
  · rw [task.tables_eq]
    exact prepared.verdicts
  · exact prepared.summary
  · simp only [entries, report, Audit.patch, prepared.request, task.manifest, task.patch]

theorem format_of_ended (done : (run s r).ending = .exit 0) :
    ∃ f, Format.ofName? (s.chosen r.format "report" "output_format" "table") = some f := by
  cases named : Format.ofName? (s.chosen r.format "report" "output_format" "table") with
  | some f => exact ⟨f, rfl⟩
  | none =>
      have stopped : prepare s r = .error (.bad .format) := by
        simp only [prepare, named]
        rfl
      rw [run, stopped] at done
      cases done

/-- Another run that is asked for the document of the same audit leaves that document. -/
theorem SameTask.leavesDocument (task : SameTask s s' r r') (asked' : AsksDocument s' r')
    (prepared : Prepared s r a) (done' : (run s' r').ending = .exit 0) :
    LeavesDocument s' r' (.table a.entries) := by
  obtain ⟨f, named⟩ := format_of_ended done'
  obtain ⟨a', prepared', same⟩ := task.prepared prepared named
  exact same ▸ Audit.leavesDocument asked' prepared' done'

/-- A run that ends well has another beside it that is asked for the document of the same
audit, writes the same file and names a format: it ends well too. -/
theorem SameTask.ended (task : SameTask s s' r r') (asked : AsksDocument s r)
    (asked' : AsksDocument s' r') (prepared : Prepared s r a) (done : (run s r).ending = .exit 0)
    (file : r'.outputFile = r.outputFile)
    (named : (Format.ofName? (s'.chosen r'.format "report" "output_format" "table")).isSome = true) :
    ∃ a', Prepared s' r' a' ∧ (run s' r').ending = .exit 0 := by
  obtain ⟨f, named⟩ := Option.isSome_iff_exists.1 named
  obtain ⟨a', prepared', same⟩ := task.prepared prepared named
  have saves : saved s' r' (.table a.entries) = saved s r (.table a.entries) := by
    simp only [saved, file, task.files, task.env]
  refine ⟨a', prepared', ?_⟩
  rw [ending_of_document_iff asked' prepared', same, saves]
  exact (ending_of_document_iff asked prepared).1 done

/-- Runs that are asked for a document of one audit leave one document, whatever each of them
shows elsewhere and however it is asked: the report of all verdicts, and the patch exactly if
it is asked for. If one of them ends well, so does any other that writes the same file and
names a format. -/
theorem documents_agree (task : SameTask s s' r r') (asked : AsksDocument s r)
    (asked' : AsksDocument s' r') (prepared : prepare s r = .ok a)
    (done : (run s r).ending = .exit 0) :
    ∃ entries, a.verdicts = audit s.tables a.basis.evidence? a.lines ∧
      a.report.entries = .ok entries ∧ "patch" ∉ Fields.keys entries ∧
      let t : Tree := .table (entries ++ if r.patch then [("patch", .text a.patch)] else [])
      LeavesDocument s r t ∧ ((run s' r').ending = .exit 0 → LeavesDocument s' r' t) ∧
        (r'.outputFile = r.outputFile →
          (Format.ofName? (s'.chosen r'.format "report" "output_format" "table")).isSome = true →
          (run s' r').ending = .exit 0) := by
  have settled := prepare_eq_ok_iff.1 prepared
  obtain ⟨entries, reported, same⟩ := settled.report
  have leaves := leavesDocument asked settled done
  refine ⟨entries, settled.verdicts, reported, (fits_report 0 reported).2.1, ?_⟩
  rw [← same]
  refine ⟨leaves, task.leavesDocument asked' settled, fun file named => ?_⟩
  obtain ⟨_, _, done'⟩ := task.ended asked asked' settled done file named
  exact done'

section Scripts

/-- Three ways to ask for the document of one audit, one of them by the settings, which also
say to show flagged declarations only. -/
theorem documents_agree_beside_script :
    let script := "\tapi 'io.vavr:vavr:1'\n"
    let json := besideScript { General.default with json := true } script
    let plain := besideScript { General.default with plain := true } script
    let said := { besideScript .default script with
      settings :=
        [("report", .table [("output_format", .text "json"), ("show_all", .bool false)])] }
    let r := { askedPatch with outputFile := some ⟨"", ["report.json"]⟩ }
    ∃ t, LeavesDocument json r t ∧
      LeavesDocument plain { r with format := some "json", showAll := some false } t ∧
      LeavesDocument said r t := by
  intro script json plain said r
  have tables : Tables.ofSettings [] = .ok Tables.builtIn := rfl
  have toPlain : SameTask json plain r { r with format := some "json", showAll := some false } :=
    ⟨rfl, rfl, fun _ _ => rfl, tables, tables, rfl, rfl, rfl, rfl⟩
  have toSaid : SameTask json said r r :=
    ⟨rfl, rfl, fun key other => if_neg other.symm, tables, rfl, rfl, rfl, rfl, rfl⟩
  have asked : AsksDocument json r := ⟨rfl, rfl, .inl rfl⟩
  have asked' : AsksDocument plain { r with format := some "json", showAll := some false } :=
    ⟨rfl, rfl, .inr rfl⟩
  have asked'' : AsksDocument said r := ⟨rfl, rfl, .inr rfl⟩
  obtain ⟨a, prepared, done, -⟩ :=
    exists_ended (s := json) (r := r) (p := fun _ => true) (by decide +kernel)
  obtain ⟨_, -, reported, -, first, second, ends⟩ :=
    documents_agree toPlain asked asked' prepared done
  obtain ⟨_, -, reported', -, -, third, ends'⟩ :=
    documents_agree toSaid asked asked'' prepared done
  cases reported.symm.trans reported'
  exact ⟨_, first, second (ends rfl rfl), third (ends' rfl rfl)⟩

end Scripts
end Audit
end DependencyAudit.Command
