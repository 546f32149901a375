import DependencyAudit.Proofs.Number.Whole
import DependencyAudit.Proofs.Text.LowercaseAgain
import DependencyAudit.Proofs.Verdict.Cascade

/-!
Sizes that settings give. An entry counts if it stands for a number that is not negative, and
the first one that counts and that fits an artifact decides, before any size that is built in.
The sizes cannot be had at all exactly if an entry is a whole number too far from zero.
-/
namespace DependencyAudit

section Convert
variable {t : Tree}

/-- A whole number that is no float. -/
def Oversized : Tree → Prop
  | .int n => floatEnd ≤ n.natAbs
  | _ => False

instance : DecidablePred Oversized
  | .int n => inferInstanceAs (Decidable (floatEnd ≤ n.natAbs))
  | .null | .bool _ | .float _ | .text _ | .list _ | .table _ | .scalar (.halved _)
  | .scalar (.bytes _) | .scalar (.date _) | .scalar (.clock _) | .scalar (.moment _) => isFalse id

theorem exists_sizeOf?_iff : (∃ size?, sizeOf? t = .ok size?) ↔ ¬ Oversized t := by
  cases t with
  | scalar s =>
      cases s with
      | int n =>
          change (∃ size?, sizeOf? (.int n) = .ok size?) ↔ ¬ floatEnd ≤ n.natAbs
          rw [← floatOfInt?_eq_none_iff, sizeOf?, Number.toFloat]
          cases floatOfInt? n with
          | none => exact iff_of_false nofun (not_not.2 rfl)
          | some x => exact iff_of_true ⟨_, rfl⟩ nofun
      | _ => exact iff_of_true ⟨_, rfl⟩ id
  | list _ | table _ => exact iff_of_true ⟨_, rfl⟩ id

end Convert

namespace SizeTable
variable {entries settings : Fields} {entry : String × Tree} {artifact : String} {size : Float}
  {sizes : SizeTable}

/-- What an entry of the settings adds to the sizes. -/
def kept? (entry : String × Tree) : Option (String × Float) :=
  match sizeOf? entry.2 with
  | .ok (some size) => if 0 ≤ size then some (lowered entry.1, size) else none
  | _ => none

theorem kept?_eq_some_iff {added : String × Float} :
    kept? entry = some added ↔
      ∃ size, sizeOf? entry.2 = .ok (some size) ∧ 0 ≤ size ∧ added = (lowered entry.1, size) := by
  unfold kept?
  split
  case h_1 size number =>
      simp only [number, Except.ok.injEq, Option.some.injEq, exists_eq_left', eq_comm (a := added),
        Option.ite_none_right_eq_some]
  case h_2 other =>
      refine iff_of_false nofun ?_
      rintro ⟨size, number, -⟩
      exact other size number

theorem ofEntries_eq (convertible : ∀ e ∈ entries, ∃ size?, sizeOf? e.2 = .ok size?) :
    ofEntries entries = .ok (entries.filterMap kept?) := by
  induction entries with
  | nil => rfl
  | cons entry entries ih =>
      obtain ⟨fragment, value⟩ := entry
      obtain ⟨⟨size?, number⟩, others⟩ := List.forall_mem_cons.1 convertible
      rw [ofEntries, number, ih others, List.filterMap_cons, kept?, number]
      simp only [bind, Except.bind, pure, Except.pure]
      cases size? with
      | none => rfl
      | some size => by_cases nonneg : 0 ≤ size <;> simp only [nonneg, if_true, if_false]

theorem ofEntries_eq_error (h : ∃ e ∈ entries, ¬ ∃ size?, sizeOf? e.2 = .ok size?) :
    ofEntries entries = .error ⟨⟩ := by
  induction entries with
  | nil =>
      obtain ⟨_, ⟨⟩, _⟩ := h
  | cons entry entries ih =>
      obtain ⟨fragment, value⟩ := entry
      rw [ofEntries]
      cases number : sizeOf? value with
      | error f => rfl
      | ok size? =>
          rw [ih]
          · rfl
          · obtain ⟨e, mem, unsized⟩ := h
            obtain rfl | mem := List.mem_cons.1 mem
            · exact absurd ⟨size?, number⟩ unsized
            · exact ⟨e, mem, unsized⟩

section Estimate

/-- An entry that counts, with a fragment that occurs in the name of an artifact. -/
structure Fits (artifact : String) (entry : String × Tree) (size : Float) : Prop where
  number : sizeOf? entry.2 = .ok (some size)
  nonneg : 0 ≤ size
  inside : Text.lower entry.1.toList <:+: Text.lower artifact.toList

/-- The size of an artifact: that of the first entry that fits it, or else the built-in one. -/
inductive Estimated (entries : Fields) (artifact : String) : Float → Prop
  | entry {before after : Fields} {entry : String × Tree} {size : Float} :
      entries = before ++ entry :: after → Fits artifact entry size →
      (∀ e ∈ before, ∀ x, ¬ Fits artifact e x) → Estimated entries artifact size
  | builtIn : (∀ e ∈ entries, ∀ x, ¬ Fits artifact e x) →
      Estimated entries artifact (builtIn.estimate artifact)

/-- Fragments are in lower case already when they are looked for. -/
theorem matchesAny_lowered {fragment : String} :
    matchesAny [lowered fragment] artifact = true ↔
      Text.lower fragment.toList <:+: Text.lower artifact.toList := by
  rw [matchesAny_iff, lowered]
  simp only [List.mem_singleton, exists_eq_left, String.toList_ofList, Text.lower_lower]

theorem fits_iff :
    Fits artifact entry size ↔ kept? entry = some (lowered entry.1, size) ∧
      matchesAny [lowered entry.1] artifact = true := by
  rw [kept?_eq_some_iff, matchesAny_lowered]
  constructor
  · exact fun h => ⟨⟨size, h.number, h.nonneg, rfl⟩, h.inside⟩
  · rintro ⟨⟨_, number, nonneg, ⟨⟩⟩, inside⟩
    exact ⟨number, nonneg, inside⟩

/-- Whether an entry is found for an artifact. -/
def found (artifact : String) (entry : String × Tree) : Bool :=
  (kept? entry).any fun added => matchesAny [added.1] artifact

theorem found_iff : found artifact entry = true ↔ ∃ size, Fits artifact entry size := by
  simp only [found, Option.any_eq_true, fits_iff]
  constructor
  · rintro ⟨added, kept, inside⟩
    obtain ⟨size, -, -, rfl⟩ := kept?_eq_some_iff.1 kept
    exact ⟨size, kept, inside⟩
  · rintro ⟨size, kept, inside⟩
    exact ⟨_, kept, inside⟩

theorem found_eq_false_iff : found artifact entry = false ↔ ∀ size, ¬ Fits artifact entry size := by
  rw [← Bool.not_eq_true, found_iff, not_exists]

theorem estimate_eq (sizes : SizeTable) (artifact : String) :
    sizes.estimate artifact =
      ((sizes.find? fun entry => matchesAny [entry.1] artifact).map Prod.snd).getD defaultSize := by
  rw [estimate]
  split
  case h_1 entry found =>
    rw [found]
    rfl
  case h_2 missing =>
    rw [missing]
    rfl

theorem estimate_of_estimated (h : Estimated entries artifact size) :
    estimate (entries.filterMap kept? ++ builtIn) artifact = size := by
  rw [estimate_eq, List.find?_append, List.find?_filterMap]
  change ((((List.find? (found artifact) entries).bind kept?).or _).map Prod.snd).getD _ = _
  cases h with
  | @entry before after entry size place fits passed =>
      have first : List.find? (found artifact) entries = some entry := by
        refine List.find?_eq_some_iff_append.2 ⟨found_iff.2 ⟨size, fits⟩, before, after, place, ?_⟩
        intro e mem
        rw [found_eq_false_iff.2 (passed e mem)]
        rfl
      rw [first, Option.bind_some, (fits_iff.1 fits).1]
      rfl
  | builtIn passed =>
      have nowhere : List.find? (found artifact) entries = none := by
        refine List.find?_eq_none.2 fun e mem => ?_
        rw [found_eq_false_iff.2 (passed e mem)]
        exact Bool.false_ne_true
      rw [nowhere, estimate_eq]
      rfl

theorem exists_estimated (entries : Fields) (artifact : String) :
    ∃ size, Estimated entries artifact size := by
  cases first : List.find? (found artifact) entries with
  | none =>
      refine ⟨_, .builtIn fun e mem => found_eq_false_iff.1 ?_⟩
      exact Bool.eq_false_of_not_eq_true (List.find?_eq_none.1 first e mem)
  | some entry =>
      obtain ⟨hit, before, after, place, missed⟩ := List.find?_eq_some_iff_append.1 first
      obtain ⟨size, fits⟩ := found_iff.1 hit
      refine ⟨size, .entry place fits fun e mem => found_eq_false_iff.1 ?_⟩
      simpa using missed e mem

theorem estimate_eq_iff :
    estimate (entries.filterMap kept? ++ builtIn) artifact = size ↔
      Estimated entries artifact size := by
  refine ⟨?_, estimate_of_estimated⟩
  rintro rfl
  obtain ⟨size, estimated⟩ := exists_estimated entries artifact
  rwa [estimate_of_estimated estimated]

end Estimate
end SizeTable

/-- What is recommended for a size, and only for small ones by the kind of the declaration. -/
inductive Recommendation.Follows (size : Float) (kind : Kind) : Recommendation → Prop
  | removeHighImpact : 5 < size → Follows size kind .removeHighImpact
  | reviewLarge : ¬ 5 < size → 2 < size → Follows size kind .reviewLarge
  | testOnly : ¬ 5 < size → ¬ 2 < size → kind = .test → Follows size kind .testOnly
  | keep : ¬ 5 < size → ¬ 2 < size → kind ≠ .test → Follows size kind .keep

theorem Recommendation.follows_of (size : Float) (kind : Kind) : Follows size kind (of size kind) := by
  unfold of
  split_ifs with huge large test
  · exact .removeHighImpact huge
  · exact .reviewLarge huge large
  · exact .testOnly huge large test
  · exact .keep huge large test

namespace SizeTable

/-- Sizes of settings whose entries are floats or no numbers at all: the first entry that fits
decides, and where none fits all is as without settings. A verdict by evidence has that size, and
its recommendation follows from it. -/
theorem estimate_ofSettings (settings : Fields) (tabled : Tabled settings)
    (convertible : ∀ e ∈ classified settings "sizes", ∃ size?, sizeOf? e.2 = .ok size?) :
    ∃ sizes, ofSettings settings = .ok sizes ∧
      (∀ artifact size, sizes.estimate artifact = size ↔
        Estimated (classified settings "sizes") artifact size) ∧
      ∀ families resolved (d : Declaration), ∃ size r,
        (Verdict.of ⟨families, sizes⟩ (some resolved) d).size = some (.real size) ∧
        (Verdict.of ⟨families, sizes⟩ (some resolved) d).recommendation = some r ∧
        Estimated (classified settings "sizes") d.coordinate.artifact size ∧
        Recommendation.Follows size d.kind r := by
  have read : ofSettings settings =
      .ok ((classified settings "sizes").filterMap kept? ++ builtIn) := by
    rw [ofSettings_eq tabled, ofEntries_eq convertible]
    rfl
  refine ⟨_, read, fun _ _ => estimate_eq_iff, fun families resolved d => ?_⟩
  exact ⟨_, _, rfl, rfl, estimate_eq_iff.1 rfl, Recommendation.follows_of _ d.kind⟩

/-- Entries that count and entries that do not: a later one that fits, and a built-in one, come
behind the first one that counts. -/
theorem estimate_ofSettings_of_overlap :
    let entries : Fields := [("guava", .text "large"), ("gua", .int (-1)), ("AVA", .text " 7 "),
      ("guava-bom", .int 1)]
    let settings : Fields := [("classification", .table [("sizes", .table entries)])]
    let d : Declaration := ⟨⟨"com.google.guava", "Guava-BOM", "33.0.0"⟩, 1, "", .test⟩
    ∃ sizes, ofSettings settings = .ok sizes ∧ sizes.estimate "Guava-BOM" = 7 ∧
      sizes.estimate "okhttp" = builtIn.estimate "okhttp" ∧
      ∀ families resolved, (Verdict.of ⟨families, sizes⟩ (some resolved) d).recommendation =
        some .removeHighImpact := by
  intro entries settings d
  have tabled : Tabled settings := by
    rintro value ⟨⟩
    rfl
  have convertible : ∀ e ∈ entries, ∃ size?, sizeOf? e.2 = .ok size? := by
    simp only [entries, List.forall_mem_cons]
    exact ⟨⟨none, by decide +kernel⟩, ⟨some (-1), by decide +kernel⟩,
      ⟨some 7, by decide +kernel⟩, ⟨some 1, by decide +kernel⟩, nofun⟩
  obtain ⟨sizes, read, estimated, follows⟩ := estimate_ofSettings settings tabled convertible
  have first : ∀ e ∈ entries.take 2, found "Guava-BOM" e = false := by decide +kernel
  have nowhere : ∀ e ∈ entries, found "okhttp" e = false := by decide +kernel
  have seven : Estimated entries "Guava-BOM" 7 :=
    .entry rfl ⟨by decide +kernel, by decide, by decide +kernel⟩ fun e mem =>
      found_eq_false_iff.1 (first e mem)
  have large : (5 : Float) < 7 := by decide +kernel
  have size := (estimated _ _).2 seven
  refine ⟨sizes, read, size, ?_, fun families resolved => ?_⟩
  · exact (estimated _ _).2 (.builtIn fun e mem => found_eq_false_iff.1 (nowhere e mem))
  · obtain ⟨x, r, -, recommended, same, follows⟩ := follows families resolved d
    obtain rfl : x = 7 := ((estimated _ _).2 same).symm.trans size
    cases follows with
    | removeHighImpact => exact recommended
    | reviewLarge small | testOnly small | keep small => exact absurd large small

end SizeTable
end DependencyAudit
