import DependencyAudit.Proofs.Command.Audit
import DependencyAudit.Proofs.Settings.Load

/-!
What verdicts rest on. The mode comes from an option or the settings, and the place of the
evidence from an option, a variable or the settings; together with the evidence they settle
a basis, or the run stops. An audit reports the basis that its verdicts were made on.
-/
namespace DependencyAudit.Command
open Settings

namespace Basis
variable {s : Session} {mode : Option String} {explicit : Option Path} {asked : String}
  {basis : Basis}

/-- The mode that a run asks for: an option that is not empty, or else what the settings
say. -/
inductive Asks (settings : Fields) : Option String → String → Prop
  | option {name : String} : name ≠ "" → Asks settings (some name) name
  | setting {option : Option String} {name : String} : (∀ text ∈ option, text = "") →
      (Tree.table settings).at? ["classification", "mode"] = some (.text name) →
      Asks settings option name

/-- What settling may come to when it is known which mode is asked for. -/
inductive Settles (s : Session) (explicit : Option Path) (asked : String) :
    Except Stop Basis → Prop
  | unknown : asked ∉ modes → Settles s explicit asked (.error (.bad .mode))
  | heuristic : asked = "heuristic" → Settles s explicit asked (.ok names)
  | missing : asked = "evidence" → ¬ Places s.env s.settings explicit →
      Settles s explicit asked (.error (.bad .evidence))
  | auto : asked = "auto" → ¬ Places s.env s.settings explicit →
      Settles s explicit asked (.ok names)
  | unread {place p : Path} {cause : EvidenceCause} : asked ∈ ["auto", "evidence"] →
      Places s.env s.settings explicit → Placed s.env s.settings explicit place →
      s.files.readEvidence s.env place = .error (.file cause p) →
      Settles s explicit asked
        (.error (.said 1 ("Evidence error: " ++ (EvidenceFault.file cause p).message)))
  | read {place : Path} {resolved : Evidence} : asked ∈ ["auto", "evidence"] →
      Places s.env s.settings explicit → Placed s.env s.settings explicit place →
      s.files.readEvidence s.env place = .ok resolved →
      Settles s explicit asked (.ok (evidence resolved place))

theorem chosen_eq_iff (accepted : Accepted s.settings) :
    s.chosen mode "classification" "mode" "auto" = asked ↔ Asks s.settings mode asked := by
  obtain ⟨name, _, found⟩ := accepted.mode
  have setting : s.settingText "classification" "mode" "auto" = name := by
    simp only [Session.settingText, Session.setting?, found]
  by_cases nonempty : ∃ text ∈ mode, text ≠ ""
  · obtain ⟨text, rfl, nonempty⟩ := nonempty
    have chosen : s.chosen (some text) "classification" "mode" "auto" = text := by
      simp [Session.chosen, Option.filter, nonempty]
    rw [chosen]
    constructor
    · rintro rfl
      exact .option nonempty
    · rintro (_ | ⟨empty, _⟩)
      · rfl
      · exact absurd (empty _ rfl) nonempty
  · have empty : ∀ text ∈ mode, text = "" := by simpa using nonempty
    have chosen : s.chosen mode "classification" "mode" "auto" = name := by
      have filtered : mode.filter (· ≠ "") = none := by
        rw [Option.filter_eq_none_iff]
        intro text mem
        simp [empty text mem]
      rw [Session.chosen, filtered, setting]
    rw [chosen]
    constructor
    · rintro rfl
      exact .setting empty found
    · rintro (given | ⟨_, found'⟩)
      · exact absurd (empty _ rfl) given
      · cases found.symm.trans found'
        rfl

theorem mem_modes_iff : asked ∈ modes ↔ asked = "heuristic" ∨ asked ∈ ["auto", "evidence"] := by
  simp only [modes, List.mem_cons, List.not_mem_nil, or_false]
  tauto

theorem settle_heuristic (h : s.chosen mode "classification" "mode" "auto" = "heuristic") :
    settle s mode explicit = .ok names := by
  simp only [settle, h]
  rfl

/-- The other two modes look up the evidence. -/
theorem settle_of_asked
    (reads : s.chosen mode "classification" "mode" "auto" ∈ ["auto", "evidence"]) :
    settle s mode explicit =
      match evidencePath s.env s.settings explicit with
      | .error f => .error (.crash (.evidencePath f))
      | .ok none =>
        if s.chosen mode "classification" "mode" "auto" = "evidence" then .error (.bad .evidence)
        else .ok names
      | .ok (some p) =>
        ((s.files.readEvidence s.env p).mapError evidenceStop).map (evidence · p) := by
  have known : modes.contains (s.chosen mode "classification" "mode" "auto") = true :=
    List.contains_iff_mem.2 (mem_modes_iff.2 (.inr reads))
  have other : s.chosen mode "classification" "mode" "auto" ≠ "heuristic" := by
    intro heuristic
    rw [heuristic] at reads
    revert reads
    decide
  refine (if_neg ?_).trans (if_neg other)
  rw [known]
  exact Bool.false_ne_true

theorem settle_of_unlisted (unknown : s.chosen mode "classification" "mode" "auto" ∉ modes) :
    settle s mode explicit = .error (.bad .mode) := by
  have unlisted : modes.contains (s.chosen mode "classification" "mode" "auto") = false := by
    simpa using unknown
  simp only [settle, unlisted, Bool.not_false, if_true]

theorem settles (accepted : Accepted s.settings) {place? : Option Path}
    (located : evidencePath s.env s.settings explicit = .ok place?)
    (readable : ∀ place f, Placed s.env s.settings explicit place →
      s.files.readEvidence s.env place = .error f → ∃ cause p, f = .file cause p)
    (chosen : s.chosen mode "classification" "mode" "auto" = asked) :
    Settles s explicit asked (settle s mode explicit) := by
  by_cases known : asked ∈ modes
  · obtain heuristic | reads := mem_modes_iff.1 known
    · rw [settle_heuristic (chosen.trans heuristic)]
      exact .heuristic heuristic
    rw [settle_of_asked (chosen ▸ reads), located, chosen]
    obtain ⟨places, place, rfl, placed⟩ | ⟨silent, rfl⟩ := placed_or_not_places accepted located
    · cases read : s.files.readEvidence s.env place with
      | ok resolved =>
          simp only [read]
          exact .read reads places placed read
      | error f =>
          obtain ⟨cause, p, rfl⟩ := readable place f placed read
          simp only [read]
          exact .unread reads places placed read
    · by_cases evidence : asked = "evidence"
      · simp only [evidence, if_true]
        exact .missing rfl silent
      · simp only [evidence, if_false]
        exact .auto (by simpa [evidence] using reads) silent
  · rw [settle_of_unlisted (chosen ▸ known)]
    exact .unknown known

theorem Settles.ok_cases (h : Settles s explicit asked (.ok basis)) :
    basis = .names ∨ ∃ resolved place, basis = .evidence resolved place ∧
      Placed s.env s.settings explicit place ∧ s.files.readEvidence s.env place = .ok resolved := by
  cases h with
  | heuristic _ => exact .inl rfl
  | auto _ _ => exact .inl rfl
  | read _ _ placed read => exact .inr ⟨_, _, rfl, placed, read⟩

theorem Settles.ne_names (h : Settles s explicit "evidence" (.ok basis)) : basis ≠ .names := by
  cases h with
  | read _ _ _ _ => exact nofun
  | heuristic h | auto h _ => exact absurd h (by decide)

theorem Settles.mode_iff (h : Settles s explicit "auto" (.ok basis)) :
    basis.mode = .evidence ↔ Places s.env s.settings explicit := by
  cases h with
  | heuristic h => exact absurd h (by decide)
  | auto _ silent => exact ⟨nofun, fun places => absurd places silent⟩
  | read _ places _ _ => exact ⟨fun _ => places, fun _ => rfl⟩

end Basis

namespace Audit
variable {s : Session} {r : AuditRequest} {a : Audit}

theorem Prepared.mode_of_mem (h : Prepared s r a) {v : Verdict} (hv : v ∈ a.verdicts) :
    v.mode = a.basis.mode ∧ (v.recommendation.isSome = true ↔ a.basis.mode = .evidence) := by
  rw [h.verdicts] at hv
  obtain ⟨d, _, rfl⟩ := List.mem_map.1 hv
  cases a.basis with
  | names => exact ⟨rfl, nofun, nofun⟩
  | evidence resolved path => exact ⟨rfl, fun _ => rfl, fun _ => rfl⟩

/-- The mode of a verdict as it is reported, and whether the verdict recommends anything. -/
theorem Prepared.at?_of_mem (h : Prepared s r a) {t : Tree}
    (ht : t ∈ a.verdicts.map Verdict.toTree) :
    t.at? ["mode"] = some (.text a.basis.mode.name) ∧
      ∃ recommendation : Option String,
        t.at? ["recommendation"] = some (.ofOption .text recommendation) ∧
        (recommendation.isSome = true ↔ a.basis.mode = .evidence) := by
  obtain ⟨v, hv, rfl⟩ := List.mem_map.1 ht
  obtain ⟨mode, recommended⟩ := h.mode_of_mem hv
  constructor
  · rw [← mode]
    rfl
  · refine ⟨v.recommendation.map Recommendation.name, ?_, by rw [Option.isSome_map, recommended]⟩
    cases found : v.recommendation <;> simp [Verdict.toTree, Verdict.entries, Declaration.entries,
      Tree.at?, Fields.find?, Tree.ofOption, found]

theorem mode_name_iff (basis : Basis) : basis.mode.name = "evidence" ↔ basis.mode = .evidence := by
  cases basis with
  | names => decide
  | evidence resolved path => exact ⟨fun _ => rfl, fun _ => rfl⟩

end Audit

/-- With settings that were loaded, and unless the path or the evidence fails in a way that is
not expected, exactly one mode is asked for and settling comes to what that mode calls for:
evidence is never done without, names never look at a file, and otherwise there is evidence
exactly if something says where. What an audit reports is all on the one basis. -/
theorem settle_consistent {s : Session} {tree : FileTree} {env : Environment} {p : Path}
    (loaded : Settings.load tree env p = .ok s.settings) :
    (∀ (mode : Option String) (explicit : Option Path),
      (∃ place?, evidencePath s.env s.settings explicit = .ok place?) →
      (∀ place f, Placed s.env s.settings explicit place →
        s.files.readEvidence s.env place = .error f → ∃ cause p, f = .file cause p) →
      ∃ asked, (∀ name, Basis.Asks s.settings mode name ↔ name = asked) ∧
        Basis.Settles s explicit asked (Basis.settle s mode explicit) ∧
        ∀ basis, Basis.settle s mode explicit = .ok basis →
          (basis = .names ∨ ∃ resolved place, basis = .evidence resolved place ∧
            Placed s.env s.settings explicit place ∧
            s.files.readEvidence s.env place = .ok resolved) ∧
          (asked = "evidence" → basis ≠ .names) ∧
          (asked = "auto" → (basis.mode = .evidence ↔ Places s.env s.settings explicit))) ∧
    (∀ (mode : Option String) (explicit : Option Path), Basis.Asks s.settings mode "heuristic" →
      ∀ files, Basis.settle { s with files } mode explicit = .ok .names) ∧
    ∀ r a, Audit.prepare s r = .ok a →
      ∃ (document : Tree) (mode : String) (path : Option String) (results : List Tree),
        a.document = .ok document ∧ document.at? ["mode"] = some (.text mode) ∧
        document.at? ["evidence_file"] = some (.ofOption .text path) ∧
        (mode = "evidence" ↔ path.isSome = true) ∧
        document.at? ["results"] = some (.list results) ∧
        ∀ t ∈ results, t.at? ["mode"] = some (.text mode) ∧
          ∃ recommendation : Option String,
            t.at? ["recommendation"] = some (.ofOption .text recommendation) ∧
            (recommendation.isSome = true ↔ mode = "evidence") := by
  have accepted := accepted_of_load loaded
  refine ⟨?_, ?_, ?_⟩
  · rintro mode explicit ⟨place?, located⟩ readable
    let asked := s.chosen mode "classification" "mode" "auto"
    have settled : Basis.Settles s explicit asked _ := Basis.settles accepted located readable rfl
    refine ⟨asked, fun name => ?_, settled, fun basis same => ?_⟩
    · rw [← Basis.chosen_eq_iff accepted]
      exact eq_comm
    · rw [same] at settled
      refine ⟨settled.ok_cases, fun evidence => ?_, fun auto => ?_⟩
      · exact (evidence ▸ settled).ne_names
      · exact (auto ▸ settled).mode_iff
  · intro mode explicit heuristic files
    have chosen := (Basis.chosen_eq_iff (s := { s with files }) accepted).2 heuristic
    exact Basis.settle_heuristic chosen
  · intro r a prepared
    have settled := Audit.prepare_eq_ok_iff.1 prepared
    refine ⟨.table a.entries, a.basis.mode.name, a.report.evidence, a.verdicts.map Verdict.toTree,
      settled.document, rfl, rfl, ?_, rfl, fun t ht => ?_⟩
    · rw [Audit.mode_name_iff, Audit.report]
      cases a.basis with
      | names => exact ⟨nofun, nofun⟩
      | evidence resolved path => exact ⟨fun _ => rfl, fun _ => rfl⟩
    · rw [Audit.mode_name_iff]
      exact settled.at?_of_mem ht

/-- A variable says where the evidence is, and neither an option nor the settings ask for
a mode by name. -/
theorem settle_consistent_of_variable :
    let content := "a:b:1\n".toList.map fun c => UInt8.ofNat c.toNat
    let env : Environment :=
      { bindings := [("DEP_AUDITOR_EVIDENCE_FILE", "tree.txt")], directory := ["work"] }
    let files : FileTree := [(["work"], .directory), (["work", "tree.txt"], .file content)]
    let s : Session := ⟨env, files, .default, Settings.defaults, Tables.builtIn⟩
    let place : Path := ⟨"/", ["work", "tree.txt"]⟩
    Settings.load [] env place = .ok s.settings ∧ Basis.Asks s.settings none "auto" ∧
      Places env s.settings none ∧ Basis.settle s none none = .ok (.evidence ["a:b:1"] place) := by
  intro content env files s place
  have loaded : Settings.load [] env place = .ok s.settings := rfl
  have located : evidencePath s.env s.settings none = .ok (some place) := by decide +kernel
  have read : s.files.readEvidence s.env place = .ok ["a:b:1"] := by decide +kernel
  have found {other : Path} (h : Placed s.env s.settings none other) : other = place := by
    have same := (evidencePath_of_placed (accepted_of_load loaded) h).symm.trans located
    exact Option.some.inj (Except.ok.inj same)
  obtain ⟨asked, only, settled, outcome⟩ :=
    (settle_consistent loaded).1 none none ⟨_, located⟩ fun other f placed failed => by
      cases (found placed ▸ read).symm.trans failed
  have auto : Basis.Asks s.settings none "auto" := .setting nofun rfl
  have places : Places s.env s.settings none := .inr (.inl rfl)
  cases (only "auto").1 auto
  refine ⟨loaded, auto, places, ?_⟩
  cases same : Basis.settle s none none with
  | error stop =>
      rw [same] at settled
      cases settled with
      | unknown h => exact absurd (by decide) h
      | missing h => exact absurd h (by decide)
      | unread _ _ placed failed => cases (found placed ▸ read).symm.trans failed
  | ok basis =>
      obtain ⟨either, _, evidence⟩ := outcome basis same
      obtain rfl | ⟨resolved, other, rfl, placed, read'⟩ := either
      · cases (evidence rfl).2 places
      · cases found placed
        cases read.symm.trans read'
        rfl

end DependencyAudit.Command
