import DependencyAudit.Document.Merge
import Mathlib.Data.List.Nodup

/-!
Tables laid over each other. If the upper one gives each of its keys once, at any depth, then
whatever in it is no table stands in the result, unchanged and under the same keys.
-/
namespace DependencyAudit

section Put
variable {key other : String} {value found : Tree} {fields : Fields} {entry : String × Tree}

theorem Fields.find?_put (key : String) (value : Tree) (fields : Fields) (other : String) :
    find? other (put key value fields)
      = if other = key then some value else find? other fields := by
  induction fields with
  | nil => simp [put, find?, eq_comm]
  | cons f fields ih =>
      rw [put]
      by_cases here : f.1 = key
      · by_cases same : other = key <;> simp_all [find?, eq_comm]
      · by_cases first : f.1 = other
        · have apart : other ≠ key := fun same => here (first.trans same)
          simp [find?, first, apart]
        · simp [find?, here, first, ih]

theorem Fields.mem_of_mem_put (h : entry ∈ put key value fields) :
    entry = (key, value) ∨ entry ∈ fields := by
  induction fields with
  | nil => exact .inl (List.mem_singleton.1 h)
  | cons f fields ih =>
      rw [put] at h
      split at h
      case isTrue => exact (List.mem_cons.1 h).imp_right (List.mem_cons_of_mem f)
      case isFalse =>
        obtain first | behind := List.mem_cons.1 h
        · exact .inr (first ▸ List.mem_cons_self)
        · exact (ih behind).imp_right (List.mem_cons_of_mem f)

theorem Fields.nodup_keys_put (h : (keys fields).Nodup) : (keys (put key value fields)).Nodup := by
  induction fields with
  | nil => exact List.nodup_singleton key
  | cons f fields ih =>
      obtain ⟨first, rest⟩ := List.nodup_cons.1 h
      rw [put]
      split
      case isTrue here => exact List.nodup_cons.2 ⟨here ▸ first, rest⟩
      case isFalse apart =>
        refine List.nodup_cons.2 ⟨fun again => ?_, ih rest⟩
        obtain ⟨entry, behind, same⟩ := List.mem_map.1 again
        obtain rfl | old := mem_of_mem_put behind
        · exact apart same.symm
        · exact first (same ▸ List.mem_map_of_mem old)

theorem Fields.mem_of_find? (h : find? key fields = some value) : (key, value) ∈ fields := by
  induction fields with
  | nil => cases h
  | cons f fields ih =>
      rw [find?] at h
      split at h
      case isTrue here =>
        cases h
        exact here ▸ List.mem_cons_self
      case isFalse => exact List.mem_cons_of_mem f (ih h)

theorem Fields.find?_eq_none (h : key ∉ keys fields) : find? key fields = none := by
  cases found : find? key fields with
  | none => rfl
  | some value => exact absurd (List.mem_map_of_mem (mem_of_find? found)) h

end Put

/-- Every table in a tree gives each of its keys once. -/
inductive Tree.KeyedOnce : Tree → Prop
  | scalar (s : Scalar) : KeyedOnce (.scalar s)
  | list {items : List Tree} (each : ∀ t ∈ items, KeyedOnce t) : KeyedOnce (.list items)
  | table {fields : Fields} (distinct : (Fields.keys fields).Nodup)
      (each : ∀ f ∈ fields, KeyedOnce f.2) : KeyedOnce (.table fields)

section KeyedOnce
variable {key : String} {value : Tree} {fields : Fields}

theorem Tree.KeyedOnce.distinct (h : (Tree.table fields).KeyedOnce) :
    (Fields.keys fields).Nodup := by
  cases h
  assumption

theorem Tree.KeyedOnce.of_find? (h : (Tree.table fields).KeyedOnce)
    (found : Fields.find? key fields = some value) : value.KeyedOnce := by
  cases h with
  | table _ each => exact each _ (Fields.mem_of_find? found)

theorem Tree.keyedOnce_empty : (Tree.table []).KeyedOnce :=
  .table List.nodup_nil nofun

theorem Tree.KeyedOnce.put (h : (Tree.table fields).KeyedOnce) (once : value.KeyedOnce) :
    (Tree.table (Fields.put key value fields)).KeyedOnce := by
  cases h with
  | table distinct each =>
      refine .table (Fields.nodup_keys_put distinct) fun entry member => ?_
      obtain rfl | old := Fields.mem_of_mem_put member
      · exact once
      · exact each entry old

end KeyedOnce

section Over
variable {base upper : Fields} {path : List String} {value : Tree}

/-- What stands under a key where something may stand below it. -/
def Tree.overSome (below : Option Tree) (value : Tree) : Tree :=
  match below with
  | some base => Tree.over base value
  | none => value

theorem Fields.find?_over (distinct : (keys upper).Nodup) (base : Fields) (key : String) :
    find? key (Fields.over base upper) =
      match find? key upper with
      | some value => some (Tree.overSome (find? key base) value)
      | none => find? key base := by
  induction upper generalizing base with
  | nil => rfl
  | cons f upper ih =>
      obtain ⟨first, rest⟩ := List.nodup_cons.1 distinct
      have step : Fields.over base (f :: upper)
          = Fields.over (put f.1 (Tree.overSome (find? f.1 base) f.2) base) upper := rfl
      rw [step, ih rest, find?_put, find?]
      by_cases here : f.1 = key
      · -- The key is not given again, so what is put here is not changed any more.
        subst here
        simp [find?_eq_none first]
      · simp [here, Ne.symm here]

theorem Tree.overSome_of_not_table (below : Option Tree) (leaf : value.isTable = false) :
    overSome below value = value := by
  cases value with
  | table fields => cases leaf
  | scalar _ | list _ => cases below <;> rfl

theorem Tree.at?_over (once : (Tree.table upper).KeyedOnce) (leaf : value.isTable = false)
    (found : (Tree.table upper).at? path = some value) (base : Fields) :
    (Tree.table (Fields.over base upper)).at? path = some value := by
  induction path generalizing base upper with
  | nil =>
      cases found
      cases leaf
  | cons key path ih =>
      obtain ⟨inner, here, found⟩ := Option.bind_eq_some_iff.1 found
      have entry : Fields.find? key (Fields.over base upper)
          = some (overSome (Fields.find? key base) inner) := by
        rw [Fields.find?_over once.distinct, here]
      rw [Tree.at?, entry, Option.bind_some]
      cases inner with
      | scalar _ | list _ => rwa [overSome_of_not_table _ rfl]
      | table fields =>
          cases Fields.find? key base with
          | none => exact found
          | some below =>
              cases below with
              | scalar _ | list _ => exact found
              | table lower => exact ih (once.of_find? here) found lower

end Over
end DependencyAudit
