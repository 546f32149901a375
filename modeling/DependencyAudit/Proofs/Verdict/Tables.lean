import DependencyAudit.Document.Merge
import DependencyAudit.Proofs.Verdict.Sound

/-!
Tables that settings add to. What they add is what stands under two keys of one section, and
anything there but a table adds nothing. Families are only ever added to; they cannot be had at
all exactly if a list of names has an item that cannot be shown.
-/
namespace DependencyAudit

section Parts
variable {settings : Fields}

/-- Whatever settings say about the classification, they say in a table. -/
def Tabled (settings : Fields) : Prop :=
  ∀ value, settings.find? "classification" = some value → value.isTable = true

/-- The entries that settings give for a part of the classification. -/
def classified (settings : Fields) (key : String) : Fields :=
  match (Tree.table settings).at? ["classification", key] with
  | some (.table entries) => entries
  | _ => []

theorem exists_part (tabled : Tabled settings) :
    ∃ classification, settings.part "classification" = .ok classification ∧
      ∀ key, entriesUnder key classification = classified settings key := by
  unfold Fields.part classified
  cases found : settings.find? "classification" with
  | none =>
      refine ⟨[], rfl, fun key => ?_⟩
      simp only [Tree.at?, found, Option.bind_none]
      rfl
  | some value =>
      cases value with
      | scalar _ | list _ => cases tabled _ found
      | table classification =>
          refine ⟨classification, rfl, fun key => ?_⟩
          simp only [Tree.at?, found, Option.bind_some, entriesUnder]
          cases Fields.find? key classification <;> rfl

theorem Families.ofSettings_eq (tabled : Tabled settings) :
    ofSettings settings = (ofEntries (classified settings "families")).mapError .longInteger := by
  obtain ⟨classification, part, entries⟩ := exists_part tabled
  simp only [ofSettings, part, entries, Except.mapError, bind, Except.bind]

theorem SizeTable.ofSettings_eq (tabled : Tabled settings) :
    ofSettings settings =
      ((ofEntries (classified settings "sizes")).mapError .tooLarge).map (· ++ builtIn) := by
  obtain ⟨classification, part, entries⟩ := exists_part tabled
  simp only [ofSettings, part, entries, Except.mapError, bind, Except.bind]
  cases ofEntries (classified settings "sizes") <;> rfl

end Parts

namespace Families
variable {configured : Fields} {families others : Families} {key : String} {t : Tree}

/-- Families of which others have all the names. -/
structure Within (families others : Families) : Prop where
  essential : families.essential ⊆ others.essential
  largeUtility : families.largeUtility ⊆ others.largeUtility
  framework : families.framework ⊆ others.framework

/-- A list with an item that is, or holds, a number with too many digits. -/
def Unshown (t : Tree) : Prop := ∃ items, t = .list items ∧ ∃ item ∈ items, item.isLong = true

theorem exists_fragments_iff : (∃ names, fragments t = .ok names) ↔ ¬ Unshown t := by
  cases t with
  | scalar s =>
      refine iff_of_true ?_ (by rintro ⟨_, ⟨⟩, _⟩)
      cases s <;> exact ⟨_, rfl⟩
  | table fields => exact iff_of_true ⟨_, rfl⟩ (by rintro ⟨_, ⟨⟩, _⟩)
  | list items =>
      have shown : ¬ Unshown (.list items) ↔ Tree.anyLong items = false := by
        simp [Unshown, Tree.anyLong_eq_false_iff]
      rw [shown, fragments]
      cases Tree.anyLong items with
      | false => exact iff_of_true ⟨_, rfl⟩ rfl
      | true => exact ⟨nofun, nofun⟩

theorem exists_fragmentsUnder_iff :
    (∃ names, fragmentsUnder key configured = .ok names) ↔
      ∀ value, configured.find? key = some value → ¬ Unshown value := by
  rw [fragmentsUnder]
  cases configured.find? key with
  | none => exact iff_of_true ⟨_, rfl⟩ nofun
  | some value => simp [exists_fragments_iff]

def keys : List String := ["essential", "large_utility", "framework"]

theorem ofEntries_eq_ok_iff :
    ofEntries configured = .ok families ↔
      ∃ essential largeUtility framework,
        fragmentsUnder "essential" configured = .ok essential ∧
        fragmentsUnder "large_utility" configured = .ok largeUtility ∧
        fragmentsUnder "framework" configured = .ok framework ∧
        families = ⟨builtIn.essential ++ essential, builtIn.largeUtility ++ largeUtility,
          builtIn.framework ++ framework⟩ := by
  rw [ofEntries]
  simp only [bind_eq_ok_iff]
  constructor
  · rintro ⟨essential, first, largeUtility, second, framework, third, ⟨⟩⟩
    exact ⟨essential, largeUtility, framework, first, second, third, rfl⟩
  · rintro ⟨essential, largeUtility, framework, first, second, third, rfl⟩
    exact ⟨essential, first, largeUtility, second, framework, third, rfl⟩

theorem exists_ofEntries_iff :
    (∃ families, ofEntries configured = .ok families) ↔
      ∀ key ∈ keys, ∀ value, configured.find? key = some value → ¬ Unshown value := by
  simp only [keys, List.forall_mem_cons, ← exists_fragmentsUnder_iff, ofEntries_eq_ok_iff]
  constructor
  · rintro ⟨_, essential, largeUtility, framework, first, second, third, -⟩
    exact ⟨⟨_, first⟩, ⟨_, second⟩, ⟨_, third⟩, nofun⟩
  · rintro ⟨⟨_, first⟩, ⟨_, second⟩, ⟨_, third⟩, -⟩
    exact ⟨_, _, _, _, first, second, third, rfl⟩

theorem within_ofEntries (h : ofEntries configured = .ok families) : builtIn.Within families := by
  obtain ⟨_, _, _, _, _, _, rfl⟩ := ofEntries_eq_ok_iff.1 h
  exact ⟨List.subset_append_left _ _, List.subset_append_left _ _, List.subset_append_left _ _⟩

theorem within_ofSettings {settings : Fields} (h : ofSettings settings = .ok families) :
    builtIn.Within families := by
  obtain ⟨_, _, h⟩ := bind_eq_ok_iff.1 h
  exact within_ofEntries (mapError_eq_ok_iff.1 h)

end Families
end DependencyAudit
