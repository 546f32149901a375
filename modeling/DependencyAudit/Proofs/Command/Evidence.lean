import DependencyAudit.Proofs.Command.Basis
import DependencyAudit.Proofs.Command.Explain
import DependencyAudit.Proofs.Evidence.Faults

/-!
Runs whose evidence is not had. What is wrong with the file of the evidence is told before
anything else is done with it; a fault that is none of the file ends the run untold.
-/
namespace DependencyAudit.Command
open Evidence (Told Escapes)

namespace Basis
variable {s : Session} {mode : Option String} {explicit : Option Path} {p : Path}
  {f : EvidenceFault}

/-- Verdicts are to rest on the evidence at a path. -/
structure Consults (s : Session) (mode : Option String) (explicit : Option Path) (p : Path) :
    Prop where
  asked : s.chosen mode "classification" "mode" "auto" ∈ ["auto", "evidence"]
  place : Settings.evidencePath s.env s.settings explicit = .ok (some p)

theorem settle_of_consults (h : Consults s mode explicit p) :
    settle s mode explicit =
      ((s.files.readEvidence s.env p).mapError evidenceStop).map (evidence · p) := by
  rw [settle_of_asked h.asked, h.place]

theorem settle_of_unread (h : Consults s mode explicit p)
    (unread : s.files.readEvidence s.env p = .error f) :
    settle s mode explicit = .error (evidenceStop f) := by
  rw [settle_of_consults h, unread]
  rfl

/-- A fault is told exactly if it is one of a file. -/
theorem evidenceStop_eq_said_iff :
    evidenceStop f = .said 1 s!"Evidence error: {f.message}" ↔ ∃ cause q, f = .file cause q := by
  unfold evidenceStop
  split
  case h_1 cause q => exact iff_of_true rfl ⟨cause, q, rfl⟩
  case h_2 other =>
    refine iff_of_false (fun same => nomatch congrArg Stop.ending same) ?_
    rintro ⟨cause, q, same⟩
    exact other cause q same

end Basis

section Unread
variable {s : Session} {p : Path} {f : EvidenceFault}

theorem Audit.run_of_unread {r : AuditRequest} {format : Format} {lines : List String}
    (named : Format.ofName? (s.chosen r.format "report" "output_format" "table") = some format)
    (read : s.readScript r.manifest = .ok lines) (consults : Basis.Consults s r.mode r.evidence p)
    (unread : s.files.readEvidence s.env p = .error f) :
    Audit.run s r = .stopped s.files (Basis.evidenceStop f) := by
  have prepared : prepare s r = .error (Basis.evidenceStop f) := by
    simp only [prepare, named, read, Basis.settle_of_unread consults unread, bind, Except.bind]
  rw [Audit.run, prepared]

theorem Explain.run_of_unread {r : ExplainRequest} {d : Declaration}
    (declared : Explain.declaration r = .ok d) (consults : Basis.Consults s r.mode r.evidence p)
    (unread : s.files.readEvidence s.env p = .error f) :
    Explain.run s r = .stopped s.files (Basis.evidenceStop f) := by
  have judged : verdict s r = .error (Basis.evidenceStop f) := by
    simp only [verdict, declared, Basis.settle_of_unread consults unread, bind, Except.bind]
  rw [Explain.run, judged]

/-- Reading evidence comes to evidence or to a fault of the file, unless something escapes: a
null character in the path, a number or a nesting in JSON beyond what can be read, or a value in
YAML that cannot be had. The commands that consult the evidence tell a fault of the file and end
with 1, and one that escapes ends them untold; they change no file. -/
theorem evidence_told (s : Session) (p : Path) :
    (Told p (s.files.readEvidence s.env p) ↔ ¬ Escapes s.files s.env p) ∧
      (Escapes s.files s.env p → p.hasNull = true ∨ p.kind = ".yaml" ∨ p.kind = ".yml" ∨
        p.kind = ".json" ∧ ∃ text, s.files.readText s.env p = .ok text ∧
          ((∃ n, Json.HasLongRun text n) ∨ Json.nestingLimit < text.countP Json.isOpening)) ∧
      ∀ f, s.files.readEvidence s.env p = .error f →
        (Basis.evidenceStop f = .said 1 s!"Evidence error: {f.message}" ↔
          ¬ Escapes s.files s.env p) ∧
        (∀ r format lines, Basis.Consults s r.mode r.evidence p →
          Format.ofName? (s.chosen r.format "report" "output_format" "table") = some format →
          s.readScript r.manifest = .ok lines →
          Audit.run s r = .stopped s.files (Basis.evidenceStop f)) ∧
        ∀ r d, Basis.Consults s r.mode r.evidence p → Explain.declaration r = .ok d →
          Explain.run s r = .stopped s.files (Basis.evidenceStop f) := by
  refine ⟨Evidence.told_readEvidence_iff, Evidence.Escapes.cases, fun f unread => ⟨?_, ?_, ?_⟩⟩
  · rw [Basis.evidenceStop_eq_said_iff, ← Evidence.told_readEvidence_iff, unread,
      Evidence.told_error_iff unread]
  · intro r format lines consults named read
    exact Audit.run_of_unread named read consults unread
  · intro r d consults declared
    exact Explain.run_of_unread declared consults unread

section Scripts

/-- A run without settings beside one file of ASCII characters. -/
def besideEvidence (name text : String) : Session where
  env := { directory := ["work"] }
  files := [(["work"], .directory), (["work", name],
    .file (text.toList.map fun c => UInt8.ofNat c.toNat))]
  general := .default
  settings := []
  tables := Tables.builtIn

def askedFrom (name : String) : ExplainRequest :=
  { ExplainRequest.empty with coordinate := "g:a:1", evidence := some ⟨"", [name]⟩ }

theorem consults_askedFrom (name text : String)
    (plain : Settings.evidencePath { directory := ["work"] } [] (some ⟨"", [name]⟩)
      = .ok (some ⟨"/", ["work", name]⟩)) :
    Basis.Consults (besideEvidence name text) (askedFrom name).mode (askedFrom name).evidence
      ⟨"/", ["work", name]⟩ :=
  ⟨List.mem_cons_self, plain⟩

theorem declaration_askedFrom (name : String) :
    Explain.declaration (askedFrom name)
      = .ok ⟨⟨"g", "a", "1"⟩, 0, "g:a:1", .implementation⟩ := by
  have parts : Explain.coordinate? "g:a:1" = some ⟨"g", "a", "1"⟩ := by decide +kernel
  simp only [Explain.declaration, askedFrom, ExplainRequest.empty, parts, Kind.ofName?_name]

/-- A document that is no list of coordinates: the run tells so and ends with 1. -/
theorem evidence_told_of_number :
    let s := besideEvidence "r.json" "5"
    Explain.run s (askedFrom "r.json") = .stopped s.files (.said 1
      ("Evidence error: Evidence file /work/r.json must hold a list of coordinates or a "
        ++ "'resolved' list")) := by
  intro s
  have unread : s.files.readEvidence s.env ⟨"/", ["work", "r.json"]⟩
      = .error (.file .notList ⟨"/", ["work", "r.json"]⟩) := by decide +kernel
  obtain ⟨told, -, ends⟩ := evidence_told s ⟨"/", ["work", "r.json"]⟩
  obtain ⟨said, -, explained⟩ := ends _ unread
  have kept := told.1 (unread ▸ .fault .notList)
  rw [explained _ _ (consults_askedFrom "r.json" "5" rfl) (declaration_askedFrom "r.json"),
    said.2 kept]
  rfl

/-- A list with a date that no calendar has: well-formed YAML, and a run that consults it is
ended by a fault that is not told. -/
theorem evidence_untold_of_date :
    let s := besideEvidence "r.yaml" "- 2024-13-45\n"
    let p : Path := ⟨"/", ["work", "r.yaml"]⟩
    ¬ Told p (s.files.readEvidence s.env p) ∧
      Explain.run s (askedFrom "r.yaml")
        = .stopped s.files (.crash (.evidence (.yamlValue (.calendar .month)))) := by
  intro s p
  have unread : s.files.readEvidence s.env p = .error (.yamlValue (.calendar .month)) := by
    decide +kernel
  have consults := consults_askedFrom "r.yaml" "- 2024-13-45\n" rfl
  rw [unread]
  exact ⟨Evidence.not_told nofun,
    Explain.run_of_unread (declaration_askedFrom "r.yaml") consults unread⟩

end Scripts
end Unread
end DependencyAudit.Command
