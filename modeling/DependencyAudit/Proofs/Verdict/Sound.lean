import DependencyAudit.Proofs.Declaration.Place
import DependencyAudit.Proofs.Results

/-!
What holds of every verdict, whatever it is about. Sizes that settings give are not
negative, so no estimate is. A verdict without evidence rests on names alone; a
verdict by evidence flags exactly what was not resolved, whatever the names say.
-/
namespace DependencyAudit

namespace SizeTable
variable {sizes others : SizeTable}

def NonNegative (sizes : SizeTable) : Prop := ∀ entry ∈ sizes, 0 ≤ entry.2

theorem nonNegative_builtIn : builtIn.NonNegative := by
  unfold NonNegative
  decide

theorem NonNegative.cons {fragment : String} {size : Float} (hsize : 0 ≤ size)
    (h : sizes.NonNegative) : NonNegative ((fragment, size) :: sizes) :=
  List.forall_mem_cons.2 ⟨hsize, h⟩

theorem NonNegative.append (h : sizes.NonNegative) (h' : others.NonNegative) :
    NonNegative (sizes ++ others) :=
  List.forall_mem_append.2 ⟨h, h'⟩

theorem nonNegative_ofEntries {entries : Fields} (h : ofEntries entries = .ok sizes) :
    sizes.NonNegative := by
  induction entries generalizing sizes with
  | nil =>
      cases h
      exact nofun
  | cons entry entries ih =>
      obtain ⟨size, _, h⟩ := bind_eq_ok_iff.1 h
      obtain ⟨rest, hrest, h⟩ := bind_eq_ok_iff.1 h
      cases size with
      | none =>
          cases h
          exact ih hrest
      | some size =>
          cases Except.ok.inj h
          split
          case isTrue hsize => exact (ih hrest).cons hsize
          case isFalse => exact ih hrest

theorem nonNegative_ofSettings {settings : Fields} (h : ofSettings settings = .ok sizes) :
    sizes.NonNegative := by
  obtain ⟨classification, _, h⟩ := bind_eq_ok_iff.1 h
  obtain ⟨extra, hextra, h⟩ := bind_eq_ok_iff.1 h
  cases h
  exact (nonNegative_ofEntries (mapError_eq_ok_iff.1 hextra)).append nonNegative_builtIn

theorem NonNegative.estimate (h : sizes.NonNegative) (artifact : String) :
    0 ≤ sizes.estimate artifact := by
  rw [SizeTable.estimate]
  split
  case h_1 entry found => exact h entry (List.mem_of_find?_eq_some found)
  case h_2 => decide

end SizeTable

namespace Rule

theorem confidence_le (r : Rule) : r.confidence ≤ 100 := by
  cases r <;> decide

theorem size_nonneg (r : Rule) : 0 ≤ r.size := by
  cases r <;> decide

/-- What the build resolved is never described as unused. -/
theorem category_resolved_ne (r : Rule) : r.resolved.category ≠ .likelyUnused := by
  cases r <;> decide

end Rule

namespace Verdict

/-- Confidence is a percentage, the size is not negative, and flagged is what is
described as unused. -/
structure Sound (v : Verdict) : Prop where
  confidence : ∃ n : Nat, v.confidence = some (.int n) ∧ n ≤ 100
  size : ∃ x : Float, v.size = some (.real x) ∧ 0 ≤ x
  flagged_iff : v.flagged = true ↔ v.category = .likelyUnused

/-- The figures of a verdict: a whole percentage and a size. -/
theorem figures_of (tables : Tables) (evidence : Option (List String)) (d : Declaration) :
    ∃ (percent : Nat) (size : Float), percent ≤ 100 ∧
      (Verdict.of tables evidence d).confidence = some (.int percent) ∧
      (Verdict.of tables evidence d).size = some (.real size) := by
  cases evidence with
  | none => exact ⟨_, _, Rule.confidence_le _, rfl, rfl⟩
  | some resolved =>
      simp only [Verdict.of, byEvidence]
      split
      · exact ⟨absentConfidence, _, by decide, rfl, rfl⟩
      · exact ⟨_, _, Rule.confidence_le _, rfl, rfl⟩

variable (tables : Tables) (d : Declaration)

theorem sound_byName (families : Families) : (byName families d).Sound where
  confidence := ⟨_, rfl, Rule.confidence_le _⟩
  size := ⟨_, rfl, Rule.size_nonneg _⟩
  flagged_iff := decide_eq_true_iff

theorem flagged_byEvidence (evidence : List String) :
    (byEvidence tables evidence d).flagged = true ↔ d.coordinate.text ∉ evidence := by
  simp [byEvidence]

theorem sound_byEvidence (sizes : tables.sizes.NonNegative) (evidence : List String) :
    (byEvidence tables evidence d).Sound where
  confidence := by
    simp only [byEvidence]
    split
    · exact ⟨absentConfidence, rfl, by decide⟩
    · exact ⟨_, rfl, Rule.confidence_le _⟩
  size := ⟨_, rfl, sizes.estimate _⟩
  flagged_iff := by
    simp only [byEvidence]
    cases evidence.contains d.coordinate.text with
    | false => simp
    | true => simp [Rule.category_resolved_ne]

end Verdict

/-- An audit has one verdict for each declaration, in order, and every verdict is
sound. Sizes are never negative in tables that come from settings. -/
theorem audit_sound :
    (∀ settings sizes, SizeTable.ofSettings settings = .ok sizes → sizes.NonNegative) ∧
      ∀ (tables : Tables) (evidence : Option (List String)) (lines : List String),
        tables.sizes.NonNegative →
          (audit tables evidence lines).map (·.declaration) = Declaration.ofLines lines ∧
            ∀ v ∈ audit tables evidence lines, v.Sound ∧
              (evidence = none → v.mode = .heuristic ∧ v.recommendation = none) ∧
              ∀ resolved, evidence = some resolved →
                v.mode = .evidence ∧ v.recommendation.isSome = true ∧
                  (v.flagged = true ↔ v.coordinate ∉ resolved) := by
  refine ⟨fun settings sizes => SizeTable.nonNegative_ofSettings, ?_⟩
  intro tables evidence lines sizes
  constructor
  · rw [audit, List.map_map]
    exact List.map_id'' (Verdict.declaration_of tables evidence) _
  · intro v hv
    obtain ⟨d, _, rfl⟩ := List.mem_map.1 hv
    cases evidence with
    | none => exact ⟨Verdict.sound_byName d tables.families, fun _ => ⟨rfl, rfl⟩, nofun⟩
    | some evidence =>
        refine ⟨Verdict.sound_byEvidence tables d sizes evidence, nofun, ?_⟩
        intro resolved same
        cases same
        exact ⟨rfl, rfl, Verdict.flagged_byEvidence tables d evidence⟩

/-- What was resolved stays, for all that its name says and that settings give it a size. -/
theorem audit_sound_of_settings :
    let settings : Fields :=
      [("classification", .table [("sizes", .table [("guava", .float 2.5)])])]
    let lines := ["api(\"com.google.guava:guava:33.0.0\")",
      "ksp(\"androidx.room:room-compiler:2.6.1\")"]
    let resolved := ["com.google.guava:guava:33.0.0"]
    ∃ sizes, SizeTable.ofSettings settings = .ok sizes ∧ sizes.NonNegative ∧
      let verdicts := audit ⟨.builtIn, sizes⟩ (some resolved) lines
      verdicts.map (·.flagged) = [false, true] ∧
        ∀ v ∈ verdicts, v.Sound ∧ (v.flagged = true ↔ v.coordinate ∉ resolved) := by
  have read : SizeTable.ofSettings
      [("classification", .table [("sizes", .table [("guava", .float 2.5)])])] =
        .ok (("guava", 2.5) :: SizeTable.builtIn) := by rfl
  refine ⟨_, read, audit_sound.1 _ _ read, by decide +kernel, ?_⟩
  intro v hv
  have sound := (audit_sound.2 _ _ _ (audit_sound.1 _ _ read)).2 v hv
  exact ⟨sound.1, (sound.2.2 _ rfl).2.2⟩

end DependencyAudit
