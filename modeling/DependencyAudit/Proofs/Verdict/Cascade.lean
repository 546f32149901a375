import DependencyAudit.Proofs.Verdict.Tables

/-!
Rules that are tried in order. The first that applies gives the category, so a verdict by name
with more names in the families comes from the same rule or from an earlier one. Settings only
ever add names: they can take a flag away by making a dependency an essential one and in no other
way, and nothing that is tested or essential without them is flagged with them.
-/
namespace DependencyAudit

section Names
variable {fragments more : List String} {name other : String}

theorem matchesAny_iff :
    matchesAny fragments name = true ↔
      ∃ f ∈ fragments, Text.lower f.toList <:+: Text.lower name.toList := by
  simp only [matchesAny, List.any_eq_true, Text.occursIn_iff]

theorem matchesAny_mono (h : fragments ⊆ more) (found : matchesAny fragments name = true) :
    matchesAny more name = true := by
  obtain ⟨f, mem, inside⟩ := matchesAny_iff.1 found
  exact matchesAny_iff.2 ⟨f, h mem, inside⟩

theorem matchesAny_congr (same : lowered name = lowered other) :
    matchesAny fragments name = matchesAny fragments other := by
  have same : Text.lower name.toList = Text.lower other.toList := String.ofList_injective same
  simp only [matchesAny, same]

end Names

/-- The place of a category in the order in which the rules are tried. -/
def Category.place : Category → Nat
  | essential => 0
  | test => 1
  | likelyUnused => 2
  | framework => 3
  | unknown => 4

/-- What of a declaration is compared with the essential families. -/
def Declaration.fullName (d : Declaration) : String :=
  d.coordinate.group ++ ":" ++ d.coordinate.artifact

namespace Rule
variable {families others : Families} {d e : Declaration} {r : Rule}

/-- A rule fits a declaration, whether or not an earlier one does. -/
def Fits (families : Families) (d : Declaration) : Rule → Prop
  | essential => matchesAny families.essential d.fullName = true
  | test => d.kind = .test
  | largeUtility => matchesAny families.largeUtility d.coordinate.artifact = true
  | framework => matchesAny families.framework d.coordinate.artifact = true
  | unknown => True

theorem fits_of (families : Families) (d : Declaration) : Fits families d (of families d) := by
  unfold of
  split_ifs with essential test largeUtility framework
  · exact essential
  · exact test
  · exact largeUtility
  · exact framework
  · trivial

/-- No rule before the one that decides fits. -/
theorem place_of_le (h : Fits families d r) :
    (of families d).category.place ≤ r.category.place := by
  unfold of
  -- a rule that stands before the chosen one was refused
  split_ifs with essential test largeUtility framework <;>
    cases r <;> simp_all [Fits, Declaration.fullName, category, Category.place]

theorem Fits.mono (within : families.Within others) (h : Fits families d r) :
    Fits others d r := by
  cases r with
  | essential => exact matchesAny_mono within.essential h
  | test | unknown => exact h
  | largeUtility => exact matchesAny_mono within.largeUtility h
  | framework => exact matchesAny_mono within.framework h

/-- More names lead to the same rule or to an earlier one. -/
theorem place_of_antitone (within : families.Within others) (d : Declaration) :
    (of others d).category.place ≤ (of families d).category.place :=
  place_of_le ((fits_of families d).mono within)

/-- What two declarations have in common if no rule tells them apart. -/
structure Alike (d e : Declaration) : Prop where
  fullName : lowered d.fullName = lowered e.fullName
  artifact : lowered d.coordinate.artifact = lowered e.coordinate.artifact
  kind : d.kind = e.kind

theorem Alike.of_eq (h : Alike d e) (families : Families) : of families d = of families e := by
  have fullName : matchesAny families.essential (d.coordinate.group ++ ":" ++ d.coordinate.artifact)
      = matchesAny families.essential (e.coordinate.group ++ ":" ++ e.coordinate.artifact) :=
    matchesAny_congr h.fullName
  simp only [of, fullName, matchesAny_congr h.artifact, h.kind]

end Rule

namespace Verdict
variable {families others : Families} {d : Declaration}

theorem flagged_byName_iff :
    (byName families d).flagged = true ↔ Rule.of families d = .largeUtility := by
  change decide _ = true ↔ _
  cases Rule.of families d <;> decide

/-- A flag that more names take away was taken away by an essential one. -/
theorem flagged_or_essential (within : families.Within others)
    (flagged : (byName families d).flagged = true) :
    (byName others d).flagged = true ∨ (byName others d).category = .essential := by
  have unused := flagged_byName_iff.1 flagged
  have earlier := Rule.place_of_antitone within d
  have fits := Rule.fits_of others d
  rw [flagged_byName_iff]
  change _ ∨ (Rule.of others d).category = .essential
  cases decided : Rule.of others d with
  | essential => exact .inr rfl
  | largeUtility => exact .inl rfl
  | framework | unknown =>
      rw [decided, unused] at earlier
      exact absurd earlier (by decide)
  | test =>
      rw [decided] at fits
      -- a declaration for tests was no other before
      have before : (Rule.of families d).category.place ≤ Rule.test.category.place :=
        Rule.place_of_le fits
      rw [unused] at before
      exact absurd before (by decide)

theorem not_flagged_of_fits {r : Rule} (before : r.category.place < Category.likelyUnused.place)
    (h : Rule.Fits families d r) : (byName families d).flagged = false := by
  rw [← Bool.not_eq_true, flagged_byName_iff]
  intro unused
  have first := Rule.place_of_le h
  rw [unused] at first
  exact absurd before (not_lt.2 first)

/-- Settings give families unless a list of names has an item that cannot be shown. With the
families that they give, a verdict by name comes from the same rule as without them or from an
earlier one, and is the same for all declarations that no rule tells apart. -/
theorem byName_raised (settings : Fields) (tabled : Tabled settings) :
    ((∃ families, Families.ofSettings settings = .ok families) ↔
      ∀ key ∈ Families.keys, ∀ value, (classified settings "families").find? key = some value →
        ¬ Families.Unshown value) ∧
    ∀ families, Families.ofSettings settings = .ok families → ∀ d : Declaration,
      (byName families d).category.place ≤ (byName .builtIn d).category.place ∧
      ((byName .builtIn d).flagged = true →
        (byName families d).flagged = true ∨ (byName families d).category = .essential) ∧
      (d.kind = .test ∨ matchesAny Families.builtIn.essential d.fullName = true →
        (byName families d).flagged = false) ∧
      ∀ e, Rule.Alike d e → byName families e = { byName families d with declaration := e } := by
  constructor
  · rw [← Families.exists_ofEntries_iff, Families.ofSettings_eq tabled]
    simp only [mapError_eq_ok_iff]
  · intro families read d
    have within := Families.within_ofSettings read
    refine ⟨Rule.place_of_antitone within d, flagged_or_essential within, ?_, fun e alike => ?_⟩
    · rintro (test | essential)
      · exact not_flagged_of_fits (r := .test) (by decide) test
      · exact not_flagged_of_fits (r := .essential) (by decide)
          (Rule.Fits.mono (r := .essential) within essential)
    · simp only [byName, alike.of_eq families]

/-- A name in the settings that makes an unused dependency an essential one, beside a number,
which is a name as well. -/
theorem byName_raised_to_essential :
    let settings : Fields := [("classification", .table [("families", .table
      [("essential", .text "GUAVA"), ("framework", .list [.int 5])])])]
    let families : Families := { Families.builtIn with
      essential := Families.builtIn.essential ++ ["guava"]
      framework := Families.builtIn.framework ++ ["5"] }
    let guava : Declaration := ⟨⟨"com.google.guava", "guava", "33.0.0"⟩, 1, "", .api⟩
    let other : Declaration := ⟨⟨"com.google.Guava", "GUAVA", "32.1.2"⟩, 7, "api", .api⟩
    Tabled settings ∧ Families.ofSettings settings = .ok families ∧ Rule.Alike guava other ∧
      (byName .builtIn guava).flagged = true ∧ (byName families guava).category = .essential ∧
      byName families other = { byName families guava with declaration := other } := by
  intro settings families guava other
  have tabled : Tabled settings := by
    rintro value ⟨⟩
    rfl
  have read : Families.ofSettings settings = .ok families := by decide +kernel
  have alike : Rule.Alike guava other := ⟨by decide +kernel, by decide +kernel, rfl⟩
  have default : (byName .builtIn guava).flagged = true := by decide +kernel
  obtain ⟨-, raised, -, same⟩ := (byName_raised settings tabled).2 families read guava
  have unflagged : (byName families guava).flagged = false := by decide +kernel
  refine ⟨tabled, read, alike, default, (raised default).resolve_left ?_, same other alike⟩
  rw [unflagged]
  exact Bool.false_ne_true

end Verdict
end DependencyAudit
