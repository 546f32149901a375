import DependencyAudit.Proofs.Command.Evidence
import DependencyAudit.Proofs.Command.Start
import DependencyAudit.Proofs.Settings.Lookup

/-!
Runs that look the evidence up in the settings. Settings are loaded whatever they hold for its
place, so what is no path, or leads to no place, is found out only by the commands that need it,
and ends them untold.
-/
namespace DependencyAudit.Command
open Settings (Lookup)

namespace Basis
variable {s : Session} {mode : Option String} {explicit : Option Path}
  {f : Settings.EvidencePathFault}

theorem evidenceStop_ne_crash {g : EvidenceFault} : evidenceStop g ≠ .crash (.evidencePath f) := by
  cases g <;> exact fun same => nomatch congrArg Stop.ending same

theorem bad_ne_crash {v : BadValue} : Stop.bad v ≠ .crash (.evidencePath f) :=
  fun same => nomatch congrArg Stop.ending same

/-- Only the place of the evidence ends settling with a fault of that place. -/
theorem settle_eq_crash_iff :
    settle s mode explicit = .error (.crash (.evidencePath f)) ↔
      s.chosen mode "classification" "mode" "auto" ∈ ["auto", "evidence"] ∧
        Settings.evidencePath s.env s.settings explicit = .error f := by
  by_cases asked : s.chosen mode "classification" "mode" "auto" ∈ ["auto", "evidence"]
  · rw [settle_of_asked asked, and_iff_right asked]
    cases Settings.evidencePath s.env s.settings explicit with
    | error g => simp [Stop.crash]
    | ok place? =>
        refine iff_of_false ?_ nofun
        cases place? with
        | none =>
            dsimp only
            split_ifs
            · exact fun same => bad_ne_crash (Except.error.inj same)
            · exact nofun
        | some p =>
            dsimp only
            cases s.files.readEvidence s.env p with
            | ok _ => exact nofun
            | error g => exact fun same => evidenceStop_ne_crash (Except.error.inj same)
  · refine iff_of_false ?_ fun h => asked h.1
    by_cases known : s.chosen mode "classification" "mode" "auto" ∈ Settings.modes
    · have heuristic := (mem_modes_iff.1 known).resolve_right asked
      rw [settle_heuristic heuristic]
      exact nofun
    · rw [settle_of_unlisted known]
      exact fun same => bad_ne_crash (Except.error.inj same)

end Basis

section LooksUp
variable {s : Session} {f : Settings.EvidencePathFault}

/-- An audit that gets as far as the place of the evidence, and says nothing of it itself. -/
structure Audit.LooksUp (s : Session) (r : AuditRequest) : Prop where
  silent : r.evidence = none
  format : ∃ format,
    Format.ofName? (s.chosen r.format "report" "output_format" "table") = some format
  script : ∃ lines, s.readScript r.manifest = .ok lines
  mode : s.chosen r.mode "classification" "mode" "auto" ∈ ["auto", "evidence"]

/-- The same of a verdict on one coordinate. -/
structure Explain.LooksUp (s : Session) (r : ExplainRequest) : Prop where
  silent : r.evidence = none
  declaration : ∃ d, Explain.declaration r = .ok d
  mode : s.chosen r.mode "classification" "mode" "auto" ∈ ["auto", "evidence"]

theorem scriptStop_ne_crash {g : ScriptFault} :
    Session.scriptStop g ≠ .crash (.evidencePath f) := by
  unfold Session.scriptStop
  split <;> exact fun same => nomatch congrArg Stop.ending same

theorem Audit.prepare_eq_crash_iff {r : AuditRequest} (silent : r.evidence = none) :
    prepare s r = .error (.crash (.evidencePath f)) ↔
      LooksUp s r ∧ Settings.evidencePath s.env s.settings none = .error f := by
  constructor
  · intro h
    cases named : Format.ofName? (s.chosen r.format "report" "output_format" "table") with
    | none =>
        simp only [prepare, named] at h
        exact absurd (Except.error.inj h) Basis.bad_ne_crash
    | some format =>
        simp only [prepare, named] at h
        obtain ⟨⟨⟩⟩ | ⟨_, _, h⟩ := bind_eq_error_iff.1 h
        obtain unread | ⟨lines, read, h⟩ := bind_eq_error_iff.1 h
        · obtain ⟨g, _, same⟩ := mapError_eq_error_iff.1 unread
          exact absurd same scriptStop_ne_crash
        obtain unsettled | ⟨basis, _, h⟩ := bind_eq_error_iff.1 h
        · obtain ⟨asked, failed⟩ := Basis.settle_eq_crash_iff.1 unsettled
          rw [silent] at failed
          exact ⟨⟨silent, ⟨format, named⟩, ⟨lines, read⟩, asked⟩, failed⟩
        obtain unsummed | ⟨summary, _, h⟩ := bind_eq_error_iff.1 h
        · obtain ⟨g, _, same⟩ := mapError_eq_error_iff.1 unsummed
          cases congrArg Stop.ending same
        cases h
  · rintro ⟨⟨-, ⟨format, named⟩, ⟨lines, read⟩, asked⟩, failed⟩
    have unsettled : Basis.settle s r.mode r.evidence = .error (.crash (.evidencePath f)) :=
      Basis.settle_eq_crash_iff.2 ⟨asked, silent ▸ failed⟩
    simp only [prepare, named, read, unsettled, bind, Except.bind]

theorem Explain.verdict_eq_crash_iff {r : ExplainRequest} (silent : r.evidence = none) :
    verdict s r = .error (.crash (.evidencePath f)) ↔
      LooksUp s r ∧ Settings.evidencePath s.env s.settings none = .error f := by
  constructor
  · intro h
    obtain undeclared | ⟨d, declared, h⟩ := bind_eq_error_iff.1 h
    · unfold declaration at undeclared
      split at undeclared
      case h_1 => exact absurd (Except.error.inj undeclared) Basis.bad_ne_crash
      case h_2 => exact absurd (Except.error.inj undeclared) Basis.bad_ne_crash
      case h_3 => cases undeclared
    obtain unsettled | ⟨basis, _, h⟩ := bind_eq_error_iff.1 h
    · obtain ⟨asked, failed⟩ := Basis.settle_eq_crash_iff.1 unsettled
      rw [silent] at failed
      exact ⟨⟨silent, ⟨d, declared⟩, asked⟩, failed⟩
    · cases h
  · rintro ⟨⟨-, ⟨d, declared⟩, asked⟩, failed⟩
    have unsettled : Basis.settle s r.mode r.evidence = .error (.crash (.evidencePath f)) :=
      Basis.settle_eq_crash_iff.2 ⟨asked, silent ▸ failed⟩
    simp only [verdict, declared, unsettled, bind, Except.bind]

/-- With settings that were loaded, and the place of the evidence said nowhere else and without
half of a surrogate pair, looking it up comes to nothing, to a place, or to a fault. A fault is
found out exactly by the commands that get as far as the evidence, and ends them untold before they
do anything. -/
theorem lookup_of_load {tree : FileTree} {env : Environment} {p : Path}
    (loaded : Settings.load tree env p = .ok s.settings)
    (unset : s.env.given? "DEP_AUDITOR_EVIDENCE_FILE" = none)
    (whole : Settings.Whole s.settings) :
    (∀ result, Settings.evidencePath s.env s.settings none = result ↔
      Lookup s.env s.settings result) ∧
    ∀ f,
      (∀ r, r.evidence = none → (Audit.prepare s r = .error (.crash (.evidencePath f)) ↔
        Audit.LooksUp s r ∧ Lookup s.env s.settings (.error f))) ∧
      (∀ r, r.evidence = none → (Explain.verdict s r = .error (.crash (.evidencePath f)) ↔
        Explain.LooksUp s r ∧ Lookup s.env s.settings (.error f))) ∧
      (Lookup s.env s.settings (.error f) →
        (∀ r, Audit.LooksUp s r →
          Audit.run s r = .stopped s.files (.crash (.evidencePath f))) ∧
        ∀ r, Explain.LooksUp s r →
          Explain.run s r = .stopped s.files (.crash (.evidencePath f))) := by
  have lookup {result : Except Settings.EvidencePathFault (Option Path)} :
      Settings.evidencePath s.env s.settings none = result ↔ Lookup s.env s.settings result := by
    rw [Settings.evidencePath_eq_ofSetting (Settings.accepted_of_load loaded) unset,
      Settings.ofSetting_eq_iff whole]
  refine ⟨fun _ => lookup, fun f => ⟨fun r silent => ?_, fun r silent => ?_, fun failed => ?_⟩⟩
  · rw [Audit.prepare_eq_crash_iff silent, lookup]
  · rw [Explain.verdict_eq_crash_iff silent, lookup]
  · refine ⟨fun r looks => ?_, fun r looks => ?_⟩
    · have prepared := (Audit.prepare_eq_crash_iff looks.silent).2 ⟨looks, lookup.2 failed⟩
      rw [Audit.run, prepared]
    · have judged := (Explain.verdict_eq_crash_iff looks.silent).2 ⟨looks, lookup.2 failed⟩
      rw [Explain.run, judged]

/-- Homes in settings that were loaded. Where no variable says the run's own, the one known for it
is taken. There is none of a stranger: the look-up fails, and so does the run. -/
theorem lookup_of_load_of_homes :
    let atHome := besideSettings "c.json" "\x7b\"evidence\": \x7b\"file\": \"~/e.txt\"\x7d\x7d".toList
    let atStranger := besideSettings "c.toml" "[evidence]\nfile = '~stranger/e.txt'\n".toList
    let env : Environment := { directory := ["work"], homes := [("", "/home")] }
    let r : ExplainRequest := { ExplainRequest.empty with coordinate := "g:a:1" }
    (∃ settings, Settings.load atHome env ⟨"/", ["work", "c.json"]⟩ = .ok settings ∧
      Settings.Whole settings ∧ Lookup env settings (.ok (some ⟨"/", ["home", "e.txt"]⟩))) ∧
    ∃ settings, Settings.load atStranger env ⟨"/", ["work", "c.toml"]⟩ = .ok settings ∧
      Settings.Whole settings ∧ Lookup env settings (.error (.path .noHome)) ∧
      Explain.run ⟨env, atStranger, .default, settings, .builtIn⟩ r =
        .stopped atStranger (.crash (.evidencePath (.path .noHome))) := by
  intro atHome atStranger env r
  have unset : env.given? "DEP_AUDITOR_EVIDENCE_FILE" = none := rfl
  constructor
  · have read : ((Settings.load atHome env ⟨"/", ["work", "c.json"]⟩).toOption.any fun settings =>
        decide (Settings.evidencePath env settings none = .ok (some ⟨"/", ["home", "e.txt"]⟩))) =
        true := by decide +kernel
    clear_value atHome
    obtain ⟨settings, loaded, read⟩ := exists_of_any_toOption read
    have found := of_decide_eq_true read
    have whole : Settings.Whole settings :=
      Settings.whole_of_ne (Settings.accepted_of_load loaded) unset (by simp [found])
    obtain ⟨lookup, -⟩ :=
      lookup_of_load (s := ⟨env, atHome, .default, settings, .builtIn⟩) loaded unset whole
    exact ⟨settings, loaded, whole, (lookup _).1 found⟩
  · have read : ((Settings.load atStranger env ⟨"/", ["work", "c.toml"]⟩).toOption.any
        fun settings => decide (Settings.evidencePath env settings none = .error (.path .noHome) ∧
          Session.chosen ⟨env, atStranger, .default, settings, .builtIn⟩ none "classification"
            "mode" "auto" = "auto")) = true := by decide +kernel
    have declared : ∃ d, Explain.declaration r = .ok d := by
      have parts : Explain.coordinate? "g:a:1" = some ⟨"g", "a", "1"⟩ := by decide +kernel
      simp only [Explain.declaration, r, ExplainRequest.empty, parts, Kind.ofName?_name]
      exact ⟨_, rfl⟩
    clear_value atStranger
    obtain ⟨settings, loaded, read⟩ := exists_of_any_toOption read
    obtain ⟨failed, auto⟩ := of_decide_eq_true read
    let s : Session := ⟨env, atStranger, .default, settings, .builtIn⟩
    have whole : Settings.Whole settings :=
      Settings.whole_of_ne (Settings.accepted_of_load loaded) unset (by simp [failed])
    obtain ⟨lookup, runs⟩ := lookup_of_load (s := s) loaded unset whole
    have lost := (lookup _).1 failed
    have looks : Explain.LooksUp s r := ⟨rfl, declared, List.mem_cons.2 (.inl auto)⟩
    exact ⟨settings, loaded, whole, lost, ((runs _).2.2 lost).2 r looks⟩

/-- A number for the place of the evidence: the settings are loaded, and a run crashes. -/
theorem lookup_of_number :
    let files := besideSettings "c.toml" "[evidence]\nfile = 5\n".toList
    let env : Environment := { bindings := [("HOME", "/home")], directory := ["work"] }
    let crash : Crash := .evidencePath (.notPath "int")
    (∃ settings, Settings.load files env ⟨"/", ["work", "c.toml"]⟩ = .ok settings ∧
      Settings.evidencePath env settings none = .error (.notPath "int")) ∧
    (run env files ["--config", "c.toml", "explain", "g:a:1"]).ending = .crash crash ∧
    crash.message = "expected str, bytes or os.PathLike object, not int" := by
  intro files env crash
  have read : ((Settings.load files env ⟨"/", ["work", "c.toml"]⟩).toOption.any fun settings =>
      decide (Settings.evidencePath env settings none = .error (.notPath "int"))) = true := by
    decide +kernel
  obtain ⟨settings, loaded, failed⟩ := exists_of_any_toOption read
  exact ⟨⟨settings, loaded, of_decide_eq_true failed⟩, by decide +kernel, rfl⟩

end LooksUp
end DependencyAudit.Command
