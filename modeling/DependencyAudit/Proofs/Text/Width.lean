import DependencyAudit.Text.Width
import Mathlib.Data.List.Infix

/-!
Columns of the parts of a text. A text is at least as wide as its parts together, unless
one of them ends in a joiner, which would hide the start of the next; it can be wider,
since a selector widens what stands before it. Clusters hold the characters of their text
and no others.
-/
namespace DependencyAudit.Text

namespace Measure

/-- A measure that is `n` columns ahead and has seen at least as much. -/
structure Ahead (n : Nat) (m m' : Measure) : Prop where
  columns : m.columns + n ≤ m'.columns
  last : m.last = none ∨ m.last = m'.last
  hides : m.hides = m'.hides

variable {n : Nat} {m m' : Measure}

/-- Both measures take the same branch, since both hide the character or neither does. -/
theorem Ahead.add (h : Ahead n m m') (c : Char) : Ahead n (m.add c) (m'.add c) := by
  obtain ⟨columns, last, hides⟩ := h
  have widened : widening m.last ≤ widening m'.last := by
    obtain nothing | same := last
    · rw [nothing]
      exact Nat.zero_le _
    · rw [same]
  simp only [Measure.add, ← hides]
  split_ifs
  case pos | pos => exact ⟨columns, last, rfl⟩
  case pos => exact ⟨by simp only; omega, .inl rfl, rfl⟩
  case pos => exact ⟨columns, last, hides⟩
  case neg => exact ⟨by simp only; omega, .inr rfl, rfl⟩

theorem Ahead.foldl (h : Ahead n m m') (s : List Char) :
    Ahead n (s.foldl Measure.add m) (s.foldl Measure.add m') := by
  induction s generalizing m m' with
  | nil => exact h
  | cons c s ih => exact ih (h.add c)

theorem columns_le_add (m : Measure) (c : Char) : m.columns ≤ (m.add c).columns := by
  simp only [Measure.add]
  split_ifs <;> simp

theorem columns_le_foldl (m : Measure) (s : List Char) :
    m.columns ≤ (s.foldl Measure.add m).columns := by
  induction s generalizing m with
  | nil => exact Nat.le_refl _
  | cons c s ih => exact (m.columns_le_add c).trans (ih (m.add c))

theorem hides_add (m : Measure) {c : Char} (h : c ≠ joiner) : (m.add c).hides = false := by
  simp only [Measure.add, h, if_false]
  split_ifs <;> simp_all

end Measure

theorem width_le_of_prefix {s t : List Char} (h : s <+: t) : width s ≤ width t := by
  obtain ⟨rest, rfl⟩ := h
  rw [width, width, List.foldl_append]
  exact Measure.columns_le_foldl _ rest

theorem width_add_width_le {s t : List Char} (h : ∀ c ∈ s.getLast?, c ≠ joiner) :
    width s + width t ≤ width (s ++ t) := by
  have visible : (s.foldl Measure.add .start).hides = false := by
    cases s using List.reverseRecOn with
    | nil => rfl
    | append_singleton s c =>
        rw [List.foldl_append]
        exact Measure.hides_add _ (h c (by simp))
  have ahead : Measure.Ahead (width s) .start (s.foldl Measure.add .start) :=
    ⟨(Nat.zero_add _).le, .inl rfl, visible.symm⟩
  have columns := (ahead.foldl t).columns
  rw [width, width, width, List.foldl_append]
  rw [width] at columns
  omega

namespace Clustering

theorem chars_join (k : Clustering) (c : Char) (columns : Nat) :
    (k.join c columns).found.flatMap (·.chars) = c :: k.found.flatMap (·.chars) := by
  unfold join
  split
  case h_1 first => rw [first]; rfl
  case h_2 joined => rw [joined]; rfl

/-- A character joins the last cluster or starts one; either way it is the last. -/
theorem chars_add (k : Clustering) (c : Char) :
    (k.add c).found.flatMap (·.chars) = c :: k.found.flatMap (·.chars) := by
  simp only [Clustering.add]
  split_ifs
  case pos | pos | pos | pos => exact k.chars_join c _
  case neg => rfl

theorem chars_foldl (k : Clustering) (s : List Char) :
    (s.foldl Clustering.add k).found.flatMap (·.chars) =
      s.reverse ++ k.found.flatMap (·.chars) := by
  induction s generalizing k with
  | nil => rfl
  | cons c s ih => rw [List.foldl_cons, ih, chars_add, List.reverse_cons, List.append_assoc]; rfl

end Clustering

/-- Clusters cut a text and lose nothing of it. -/
theorem chars_clusters (s : List Char) : (clusters s).flatMap (·.chars) = s := by
  have found := Clustering.chars_foldl .start s
  change _ = s.reverse ++ [] at found
  rw [clusters, ← List.map_reverse, List.flatMap_map]
  change List.flatMap (List.reverse ∘ Cluster.chars) _ = s
  rw [← List.reverse_flatMap, found, List.append_nil, List.reverse_reverse]

end DependencyAudit.Text
