import DependencyAudit.Proofs.Json.Standard
import DependencyAudit.Proofs.Report.Edits
import DependencyAudit.Proofs.Report.Totals

/-!
Finite sizes in reports. A report gives sizes in its results, in its edits and in its totals. Those
of an audit are all finite exactly if its sizes add up to a finite one, and so they are if each of
the sizes that it looks up is far enough below the end of the floats.
-/
namespace DependencyAudit

/-- A size that is a float and finite. -/
def FiniteSize (size : Option Number) : Prop :=
  ∃ x : Float, size = some (.real x) ∧ x.isFinite = true

/-- Sizes of a report, wherever it gives them. -/
structure FiniteSizes (verdicts : List Verdict) (s : Summary) : Prop where
  results : ∀ v ∈ verdicts, FiniteSize v.size
  edits : ∀ e ∈ Edit.ofVerdicts verdicts, FiniteSize e.size
  total : s.size.isFinite = true
  savings : s.savings.isFinite = true

section Documents
variable {size : Option Number} {r : Report} {entries : Fields} {s : Summary}

theorem floats_ofOption_text {α : Type} (name : α → String) (a : Option α) :
    (Tree.ofOption (fun a => .text (name a)) a).floats = [] := by
  cases a <;> rfl

theorem floats_counts {α : Type} (name : α → String) (counts : List (α × Nat)) :
    (countsTree name counts).floats = [] := by
  induction counts with
  | nil => rfl
  | cons c counts ih =>
      rw [countsTree, Tree.floats] at ih ⊢
      rw [List.map_cons, Tree.fieldFloats, ih]
      rfl

theorem floats_summary (s : Summary) : s.toTree.floats = [s.size, s.savings] := by
  simp [Summary.toTree, Tree.floats, Tree.fieldFloats, floats_counts, Tree.nat]

/-- The floats of a result are those of its two figures. -/
theorem floats_verdict (v : Verdict) :
    v.toTree.floats = (Tree.ofOption Number.toTree v.confidence).floats ++
      (Tree.ofOption Number.toTree v.size).floats := by
  simp [Verdict.toTree, Verdict.entries, Declaration.entries, Tree.floats, Tree.fieldFloats,
    floats_ofOption_text]

theorem floats_edit (e : Edit) : e.toTree.floats = (Tree.ofOption Number.toTree e.size).floats := by
  simp [Edit.toTree, Tree.floats, Tree.fieldFloats]

/-- The floats of a report stand in its totals, its results and its edits. -/
theorem floats_report (totals : Summary.ofVerdicts r.verdicts = .ok s)
    (h : r.entries = .ok entries) :
    Tree.fieldFloats entries = [s.size, s.savings] ++
      (r.verdicts.map (·.toTree.floats)).flatten ++
      ((Edit.ofVerdicts r.verdicts).map (·.toTree.floats)).flatten := by
  rw [Report.entries, totals] at h
  cases h
  have evidence : (Tree.ofOption Tree.text r.evidence).floats = [] := floats_ofOption_text id _
  simp [Tree.fieldFloats, Tree.floats, Tree.itemFloats_eq, floats_summary, evidence,
    Function.comp_def]

theorem floats_verdict_of (tables : Tables) (evidence : Option (List String)) (d : Declaration) :
    (Verdict.of tables evidence d).toTree.floats = [(Verdict.of tables evidence d).megabytes] := by
  obtain ⟨percent, size, -, confidence, real⟩ := Verdict.figures_of tables evidence d
  rw [floats_verdict, Verdict.megabytes, confidence, real]
  rfl

theorem finiteSize_of_iff (tables : Tables) (evidence : Option (List String)) (d : Declaration) :
    FiniteSize (Verdict.of tables evidence d).size ↔
      (Verdict.of tables evidence d).megabytes.isFinite = true := by
  obtain ⟨percent, size, -, -, real⟩ := Verdict.figures_of tables evidence d
  rw [Verdict.megabytes, real]
  constructor
  · rintro ⟨x, same, finite⟩
    cases same
    exact finite
  · exact fun finite => ⟨size, rfl, finite⟩

end Documents

section Audits
variable {tables : Tables} {evidence : Option (List String)} {lines : List String} {s : Summary}
  {verdicts : List Verdict} {r : Report} {entries : Fields} {sizes : SizeTable}

/-- Floats of a report of an audit are its two totals and the sizes of its verdicts. -/
theorem forall_floats_report {p : Float → Prop} (audited : r.verdicts = audit tables evidence lines)
    (totals : Summary.ofVerdicts r.verdicts = .ok s) (h : r.entries = .ok entries) :
    (∀ x ∈ Tree.fieldFloats entries, p x) ↔
      (p s.size ∧ p s.savings) ∧ ∀ v ∈ r.verdicts, p v.megabytes := by
  have results : (∀ v ∈ r.verdicts, ∀ x ∈ v.toTree.floats, p x) ↔
      ∀ v ∈ r.verdicts, p v.megabytes := by
    refine forall₂_congr fun v hv => ?_
    rw [audited] at hv
    obtain ⟨d, -, rfl⟩ := List.mem_map.1 hv
    rw [floats_verdict_of, List.forall_mem_singleton]
  have edits (each : ∀ v ∈ r.verdicts, p v.megabytes) :
      ∀ e ∈ Edit.ofVerdicts r.verdicts, ∀ x ∈ e.toTree.floats, p x := by
    intro e he
    obtain ⟨v, hv, -, rfl⟩ := exists_of_mem_ofVerdicts he
    have size : (Edit.ofVerdict v).size = some (.real v.megabytes) :=
      Summary.size_of_mem_audit (audited ▸ hv)
    rw [floats_edit, size]
    exact List.forall_mem_singleton.2 (each v hv)
  rw [floats_report totals h, List.append_assoc, List.forall_mem_append, List.forall_mem_append,
    List.forall_mem_flatten, List.forall_mem_flatten, List.forall_mem_map, List.forall_mem_map,
    results, List.forall_mem_cons, List.forall_mem_singleton]
  exact and_congr_right fun _ => and_iff_left_of_imp edits

theorem finiteSizes_iff_forall (audited : verdicts = audit tables evidence lines) :
    FiniteSizes verdicts s ↔ (s.size.isFinite = true ∧ s.savings.isFinite = true) ∧
      ∀ v ∈ verdicts, v.megabytes.isFinite = true := by
  have results : (∀ v ∈ verdicts, FiniteSize v.size) ↔
      ∀ v ∈ verdicts, v.megabytes.isFinite = true := by
    refine forall₂_congr fun v hv => ?_
    rw [audited] at hv
    obtain ⟨d, -, rfl⟩ := List.mem_map.1 hv
    exact finiteSize_of_iff tables evidence d
  constructor
  · exact fun h => ⟨⟨h.total, h.savings⟩, results.1 h.results⟩
  · rintro ⟨⟨total, savings⟩, each⟩
    refine ⟨results.2 each, fun e he => ?_, total, savings⟩
    obtain ⟨v, hv, -, rfl⟩ := exists_of_mem_ofVerdicts he
    exact results.2 each v hv

theorem isSize_of_mem_audit (nonneg : tables.sizes.NonNegative)
    (audited : verdicts = audit tables evidence lines) : ∀ v ∈ verdicts, IsSize v.megabytes := by
  rw [audited, audit, List.forall_mem_map]
  exact fun d _ => isSize_of_zero_le (Verdict.megabytes_nonneg nonneg evidence d)

theorem ten_pow_places_le : (10 : ℚ) ^ (Summary.places : Int) ≤ 2 ^ (1074 : Int) :=
  calc (10 : ℚ) ^ (Summary.places : Int) ≤ 2 ^ (7 : Int) := by
        rw [Summary.places]
        norm_num
    _ ≤ 2 ^ (1074 : Int) := zpow_le_zpow_right₀ one_le_two (by decide)

/-- None of the floats in a report of an audit is the one that is no number. -/
theorem not_isNaN_of_report (nonneg : tables.sizes.NonNegative)
    (audited : r.verdicts = audit tables evidence lines)
    (totals : Summary.ofVerdicts r.verdicts = .ok s) (h : r.entries = .ok entries) :
    ∀ x ∈ Tree.fieldFloats entries, x.isNaN = false := by
  have each := isSize_of_mem_audit nonneg audited
  rw [forall_floats_report audited totals h]
  rw [audited] at totals
  have sized := Summary.sized_of_audit nonneg totals
  refine ⟨⟨?_, ?_⟩, fun v hv => (each v hv).isNaN⟩
  · rw [sized.size, isNaN_roundTo ten_pow_places_le]
    exact sized.atMost.right.isNaN
  · rw [sized.savings, isNaN_roundTo ten_pow_places_le]
    exact sized.atMost.left.isNaN

/-- The sizes of an audit are finite, wherever it reports them, exactly if their sum is. -/
theorem finiteSizes_iff (nonneg : tables.sizes.NonNegative)
    (audited : verdicts = audit tables evidence lines)
    (totals : Summary.ofVerdicts verdicts = .ok s) :
    FiniteSizes verdicts s ↔ (megabytesOf verdicts).isFinite = true := by
  have each := isSize_of_mem_audit nonneg audited
  rw [finiteSizes_iff_forall audited]
  subst audited
  have sized := Summary.sized_of_audit nonneg totals
  rw [sized.size, sized.savings, isFinite_roundTo ten_pow_places_le,
    isFinite_roundTo ten_pow_places_le]
  constructor
  · exact fun finite => finite.1.1
  · intro finite
    have zero : IsSize 0 := isSize_of_zero_le (by decide)
    have results := (isFinite_of_foldl (List.forall_mem_map.2 each) zero finite).2
    rw [List.forall_mem_map] at results
    exact ⟨⟨finite, sized.atMost.isFinite finite⟩, results⟩

theorem Rule.modest_size (r : Rule) : Modest r.size :=
  modest_of_exponent (by cases r <;> decide)

theorem SizeTable.modest_estimate (h : ∀ entry ∈ sizes, Modest entry.2) (artifact : String) :
    Modest (sizes.estimate artifact) := by
  rw [estimate]
  split
  case h_1 entry found => exact h entry (List.mem_of_find?_eq_some found)
  case h_2 => exact modest_of_exponent (by decide)

theorem Verdict.modest_megabytes (h : evidence = none ∨ ∀ entry ∈ tables.sizes, Modest entry.2)
    (d : Declaration) : Modest (Verdict.of tables evidence d).megabytes := by
  cases evidence with
  | none => exact Rule.modest_size _
  | some resolved => exact SizeTable.modest_estimate (h.resolve_left nofun) _

/-- However many declarations there are, modest sizes and those of names alone have a sum. -/
theorem isFinite_megabytesOf (audited : verdicts = audit tables evidence lines)
    (modest : evidence = none ∨ ∀ entry ∈ tables.sizes, Modest entry.2) :
    (megabytesOf verdicts).isFinite = true := by
  have zero : Amount 0 0 := ⟨exactValue?_of_zero rfl, le_rfl⟩
  refine zero.foldl_modest (List.forall_mem_map.2 fun v member => ?_)
  rw [audited] at member
  obtain ⟨d, -, rfl⟩ := List.mem_map.1 member
  exact Verdict.modest_megabytes modest d

end Audits
end DependencyAudit
