import DependencyAudit.Proofs.Results
import DependencyAudit.Settings.EvidencePath
import DependencyAudit.Settings.Load

/-!
Settings that were loaded. The defaults pass the check that a file's settings must pass,
so whatever is loaded has its sections as tables and names a mode and a format. The
evidence is where the first of three sources says that says anything.
-/
namespace DependencyAudit.Settings

/-- What is known of settings that were not refused. -/
structure Accepted (settings : Fields) : Prop where
  mode : ∃ name ∈ modes, (Tree.table settings).at? ["classification", "mode"] = some (.text name)
  format : ∃ name ∈ formats,
    (Tree.table settings).at? ["report", "output_format"] = some (.text name)
  evidence : ∃ entries, settings.find? "evidence" = some (.table entries)

section Check
variable {fields settings : Fields} {names : List String} {refused : Tree → Cause} {value : Tree}

theorem requireTable_eq_ok_iff {name key : String} {entries : Fields} :
    requireTable name key fields = .ok entries ↔ fields.find? key = some (.table entries) := by
  simp only [requireTable, subtable?]
  cases fields.find? key with
  | none => exact ⟨nofun, nofun⟩
  | some value =>
      cases value with
      | table others => simp
      | scalar _ | list _ => exact ⟨nofun, nofun⟩

theorem isOneOf_iff : isOneOf names value = true ↔ ∃ name ∈ names, value = .text name := by
  constructor
  · intro h
    unfold isOneOf at h
    split at h
    · exact ⟨_, List.contains_iff_mem.1 h, rfl⟩
    · cases h
  · rintro ⟨name, hname, rfl⟩
    exact List.contains_iff_mem.2 hname

theorem choose_eq_ok_iff :
    choose names refused value = .ok () ↔ ∃ name ∈ names, value = .text name := by
  rw [choose, ← isOneOf_iff]
  split <;> simp_all

theorem find?_of_valueOf {key name : String} (h : valueOf key fields = .text name) :
    fields.find? key = some (.text name) := by
  unfold valueOf at h
  cases found : fields.find? key with
  | none =>
      rw [found] at h
      cases h
  | some value =>
      rw [found] at h
      exact congrArg some h

theorem at?_of_find? {place key : String}
    (h : settings.find? place = some (.table fields)) :
    (Tree.table settings).at? [place, key] = fields.find? key := by
  simp only [Tree.at?, h, Option.bind_some]
  cases fields.find? key <;> rfl

theorem accepted_of_check (h : check settings = .ok ()) : Accepted settings := by
  obtain ⟨classification, hclassification, h⟩ := bind_eq_ok_iff.1 h
  obtain ⟨report, hreport, h⟩ := bind_eq_ok_iff.1 h
  obtain ⟨evidence, hevidence, h⟩ := bind_eq_ok_iff.1 h
  obtain ⟨_, _, h⟩ := bind_eq_ok_iff.1 h
  obtain ⟨_, _, h⟩ := bind_eq_ok_iff.1 h
  obtain ⟨_, hmode, hformat⟩ := bind_eq_ok_iff.1 h
  obtain ⟨mode, known, hmode⟩ := choose_eq_ok_iff.1 hmode
  obtain ⟨format, offered, hformat⟩ := choose_eq_ok_iff.1 hformat
  refine ⟨⟨mode, known, ?_⟩, ⟨format, offered, ?_⟩, evidence, requireTable_eq_ok_iff.1 hevidence⟩
  · rw [at?_of_find? (requireTable_eq_ok_iff.1 hclassification)]
    exact find?_of_valueOf hmode
  · rw [at?_of_find? (requireTable_eq_ok_iff.1 hreport)]
    exact find?_of_valueOf hformat

end Check

theorem accepted_defaults : Accepted defaults where
  mode := ⟨"auto", by decide, rfl⟩
  format := ⟨"table", by decide, rfl⟩
  evidence := ⟨_, rfl⟩

theorem accepted_of_load {tree : FileTree} {env : Environment} {p : Path} {settings : Fields}
    (h : load tree env p = .ok settings) : Accepted settings := by
  unfold load at h
  split at h
  · cases h
  · cases h
    exact accepted_defaults
  · obtain ⟨text, _, h⟩ := bind_eq_ok_iff.1 (mapError_eq_ok_iff.1 h)
    obtain ⟨_, _, h⟩ := bind_eq_ok_iff.1 h
    obtain ⟨_, checked, h⟩ := bind_eq_ok_iff.1 h
    cases h
    exact accepted_of_check checked

section EvidencePath
variable {env : Environment} {settings : Fields} {explicit place? : Option Path} {place : Path}

/-- Something says where the evidence is, whether or not that leads to a path. -/
def Places (env : Environment) (settings : Fields) (explicit : Option Path) : Prop :=
  explicit.isSome ∨ (env.given? "DEP_AUDITOR_EVIDENCE_FILE").isSome ∨
    ∃ value, (Tree.table settings).at? ["evidence", "file"] = some value ∧ value.isGiven = true

/-- Where the evidence is: what is given with the run comes before the variable, and the
variable before the settings. -/
inductive Placed (env : Environment) (settings : Fields) : Option Path → Path → Prop
  | option {p place : Path} : env.locate p = .ok place → Placed env settings (some p) place
  | environment {text : String} {place : Path} :
      env.given? "DEP_AUDITOR_EVIDENCE_FILE" = some text → env.expandPath text = .ok place →
      Placed env settings none place
  | setting {text : String} {place : Path} :
      env.given? "DEP_AUDITOR_EVIDENCE_FILE" = none →
      (Tree.table settings).at? ["evidence", "file"] = some (.text text) → text ≠ "" →
      env.expandPath text = .ok place → Placed env settings none place

theorem isGiven_text {text : String} : (Tree.text text).isGiven = true ↔ text ≠ "" := by
  simp [Tree.isGiven]

theorem expand_eq_ok_iff {text : String} :
    expand env text = .ok place? ↔
      ∃ place, env.expandPath text = .ok place ∧ place? = some place := by
  rw [expand]
  cases env.expandPath text with
  | error f => exact ⟨nofun, nofun⟩
  | ok place => simp only [Except.ok.injEq, exists_eq_left', eq_comm]

/-- What the settings say when nothing else does. -/
def ofSetting (env : Environment) (settings : Fields) : Except EvidencePathFault (Option Path) :=
  match ((Tree.table settings).at? ["evidence", "file"]).filter Tree.isGiven with
  | none => .ok none
  | some (.text text) => expand env text
  | some value => .error (.notPath value.kindName)

theorem evidencePath_eq_ofSetting (accepted : Accepted settings)
    (unset : env.given? "DEP_AUDITOR_EVIDENCE_FILE" = none) :
    evidencePath env settings none = ofSetting env settings := by
  obtain ⟨entries, found⟩ := accepted.evidence
  have part : settings.part "evidence" = .ok entries := by rw [Fields.part, found]; rfl
  simp only [evidencePath, unset, part, ofSetting, at?_of_find? found, Except.mapError, bind,
    Except.bind]
  cases Fields.find? "file" entries with
  | none => rfl
  | some value =>
      cases given : value.isGiven with
      | false => simp only [given, Option.filter, Bool.not_false, if_true]; rfl
      | true =>
          simp only [given, Option.filter, Bool.not_true, Bool.false_eq_true, if_false, if_true]
          cases value with
          | scalar s => cases s <;> rfl
          | list _ | table _ => rfl

theorem evidencePath_of_placed (accepted : Accepted settings)
    (h : Placed env settings explicit place) :
    evidencePath env settings explicit = .ok (some place) := by
  cases h with
  | option located => simp only [evidencePath, located]
  | environment named expanded =>
      simp only [evidencePath, named]
      exact expand_eq_ok_iff.2 ⟨place, expanded, rfl⟩
  | @setting text _ unset found nonempty expanded =>
      have given := isGiven_text.2 nonempty
      rw [evidencePath_eq_ofSetting accepted unset]
      simp only [ofSetting, found, Option.filter, given, if_true]
      exact expand_eq_ok_iff.2 ⟨place, expanded, rfl⟩

theorem places_iff_of_unset (unset : env.given? "DEP_AUDITOR_EVIDENCE_FILE" = none) :
    Places env settings none ↔
      (((Tree.table settings).at? ["evidence", "file"]).filter Tree.isGiven).isSome := by
  rw [Places, unset]
  cases (Tree.table settings).at? ["evidence", "file"] with
  | none => simp
  | some value => simp

/-- A path that is settled without a fault is settled by the first source that says
anything, and is missing only if none does. -/
theorem placed_or_not_places (accepted : Accepted settings)
    (h : evidencePath env settings explicit = .ok place?) :
    (Places env settings explicit ∧ ∃ place, place? = some place ∧
        Placed env settings explicit place) ∨
      ¬ Places env settings explicit ∧ place? = none := by
  cases explicit with
  | some p =>
      cases located : env.locate p with
      | error f => simp [evidencePath, located] at h
      | ok place =>
          simp only [evidencePath, located, Except.ok.injEq] at h
          exact .inl ⟨.inl rfl, place, h.symm, .option located⟩
  | none =>
      cases named : env.given? "DEP_AUDITOR_EVIDENCE_FILE" with
      | some text =>
          simp only [evidencePath, named] at h
          obtain ⟨place, expanded, rfl⟩ := expand_eq_ok_iff.1 h
          exact .inl ⟨.inr (.inl (by rw [named]; rfl)), place, rfl, .environment named expanded⟩
      | none =>
          rw [evidencePath_eq_ofSetting accepted named, ofSetting] at h
          rw [places_iff_of_unset named]
          split at h
          case h_1 silent =>
              cases h
              exact .inr ⟨by simp [silent], rfl⟩
          case h_2 text found =>
              obtain ⟨place, expanded, rfl⟩ := expand_eq_ok_iff.1 h
              have said := Option.filter_eq_some_iff.1 found
              exact .inl ⟨by rw [found]; rfl, place, rfl,
                .setting named said.1 (isGiven_text.1 said.2) expanded⟩
          case h_3 => cases h

end EvidencePath
end DependencyAudit.Settings
