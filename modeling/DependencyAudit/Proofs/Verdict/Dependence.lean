import DependencyAudit.Proofs.Verdict.Sound
import Mathlib.Data.List.Forall2

/-!
What the parts of a verdict by evidence hang on. Whether a declaration is flagged hangs on
the evidence alone, and on that only through its own coordinate; the size and what is
recommended hang on the sizes alone; the families decide only how what is not flagged is
described.
-/
namespace DependencyAudit.Verdict
variable {tables others : Tables} {resolved more : List String} {d : Declaration}

theorem flagged_of_evidence :
    (Verdict.of tables (some resolved) d).flagged = true ↔ d.coordinate.text ∉ resolved :=
  flagged_byEvidence tables d resolved

/-- What more evidence flags, less evidence flags too. -/
theorem flagged_antitone (h : resolved ⊆ more)
    (flagged : (Verdict.of tables (some more) d).flagged = true) :
    (Verdict.of others (some resolved) d).flagged = true :=
  flagged_of_evidence.2 fun mem => flagged_of_evidence.1 flagged (h mem)

theorem flagged_of_tables :
    (Verdict.of tables (some resolved) d).flagged =
      (Verdict.of others (some resolved) d).flagged := by
  rw [Bool.eq_iff_iff, flagged_of_evidence, flagged_of_evidence]

theorem described_of_flagged (h : (Verdict.of tables (some resolved) d).flagged = true) :
    (Verdict.of tables (some resolved) d).category = .likelyUnused ∧
      (Verdict.of tables (some resolved) d).confidence = some (.int absentConfidence) := by
  have absent : (!resolved.contains d.coordinate.text) = true := h
  simp only [Verdict.of, byEvidence, absent, if_true, and_self]

theorem cost_of_sizes (same : tables.sizes = others.sizes) :
    (Verdict.of tables (some resolved) d).size = (Verdict.of others (some more) d).size ∧
      (Verdict.of tables (some resolved) d).recommendation =
        (Verdict.of others (some more) d).recommendation := by
  simp only [Verdict.of, byEvidence, same, and_self]

theorem of_evidence_congr (h : d.coordinate.text ∈ resolved ↔ d.coordinate.text ∈ more) :
    Verdict.of tables (some resolved) d = Verdict.of tables (some more) d := by
  have same : resolved.contains d.coordinate.text = more.contains d.coordinate.text := by
    rw [Bool.eq_iff_iff, List.contains_iff_mem, List.contains_iff_mem, h]
  simp only [Verdict.of, byEvidence, same]

/-- Evidence decides what is flagged and the tables do not; sizes decide what a removal is
worth and evidence does not; and of the evidence only the membership of the coordinate
itself counts. -/
theorem evidence_apart_from_tables (declarations : List Declaration) :
    let verdicts (E : List String) (F : Families) (S : SizeTable) : List Verdict :=
      declarations.map (Verdict.of ⟨F, S⟩ (some E))
    ∀ (E E' : List String) (F F' : Families) (S S' : SizeTable),
      (E ⊆ E' → List.Forall₂ (fun v w => w.flagged = true → v.flagged = true)
        (verdicts E F S) (verdicts E' F' S')) ∧
      List.Forall₂ (fun v w => v.flagged = w.flagged ∧
          (v.flagged = true → v.category = w.category ∧ v.confidence = w.confidence))
        (verdicts E F S) (verdicts E F' S') ∧
      List.Forall₂ (fun v w => v.size = w.size ∧ v.recommendation = w.recommendation)
        (verdicts E F S) (verdicts E' F' S) ∧
      List.Forall₂ (fun v w => (v.coordinate ∈ E ↔ v.coordinate ∈ E') → v = w)
        (verdicts E F S) (verdicts E' F S) := by
  intro verdicts E E' F F' S S'
  simp only [verdicts, List.forall₂_map_left_iff, List.forall₂_map_right_iff, List.forall₂_same]
  refine ⟨fun fewer d _ => flagged_antitone fewer, fun d _ => ⟨flagged_of_tables, ?_⟩,
    fun d _ => cost_of_sizes rfl, fun d _ alike => of_evidence_congr alike⟩
  intro flagged
  have flagged' : (Verdict.of ⟨F', S'⟩ (some E) d).flagged = true := flagged_of_tables.trans flagged
  obtain ⟨category, confidence⟩ := described_of_flagged flagged
  obtain ⟨category', confidence'⟩ := described_of_flagged flagged'
  exact ⟨category.trans category'.symm, confidence.trans confidence'.symm⟩

/-- Evidence that also resolves something else: what was flagged by more is flagged by less,
and a declaration that neither resolves has the same verdict. -/
theorem evidence_apart_from_tables_of_more :
    let guava : Declaration :=
      ⟨⟨"com.google.guava", "guava", "33.0.0"⟩, 3, "api 'com.google.guava:guava:33.0.0'", .api⟩
    let junit : Declaration :=
      ⟨⟨"junit", "junit", "4.13.2"⟩, 4, "testApi 'junit:junit:4.13.2'", .test⟩
    let less := ["androidx.room:room:2.6.1"]
    let more := ["androidx.room:room:2.6.1", "junit:junit:4.13.2"]
    let verdicts (resolved : List String) : List Verdict :=
      [guava, junit].map (Verdict.of Tables.builtIn (some resolved))
    less ⊆ more ∧ (guava.coordinate.text ∈ less ↔ guava.coordinate.text ∈ more) ∧
      (verdicts more).map (·.flagged) = [true, false] ∧
      List.Forall₂ (fun v w => w.flagged = true → v.flagged = true) (verdicts less)
        (verdicts more) ∧
      (verdicts less)[0]? = (verdicts more)[0]? := by
  intro guava junit less more verdicts
  have fewer : less ⊆ more := by decide
  have alike : guava.coordinate.text ∈ less ↔ guava.coordinate.text ∈ more := by decide +kernel
  obtain ⟨antitone, _, _, same⟩ := evidence_apart_from_tables [guava, junit] less more
    Families.builtIn Families.builtIn SizeTable.builtIn SizeTable.builtIn
  have first := (List.forall₂_cons.1 same).1 alike
  exact ⟨fewer, alike, by decide +kernel, antitone fewer, congrArg some first⟩

end DependencyAudit.Verdict
