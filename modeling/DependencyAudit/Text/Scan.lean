/-!
Occurrences from left to right without overlap. What counts as an occurrence may
depend on the character before it; after one, the scan goes on behind it.
-/

namespace DependencyAudit.Text

/-- Occurrences in what follows `previous`, past `skip` characters of the last one. -/
def scanFrom {α : Type} (found : Option Char → List Char → Option (α × List Char))
    (previous : Option Char) : Nat → List Char → List α
  | _, [] => []
  | skip + 1, c :: s => scanFrom found (some c) skip s
  | 0, c :: s =>
    match found previous (c :: s) with
    | some (a, rest) => a :: scanFrom found (some c) (s.length - rest.length) s
    | none => scanFrom found (some c) 0 s

def scan {α : Type} (found : Option Char → List Char → Option (α × List Char))
    (s : List Char) : List α :=
  scanFrom found none 0 s

/-- The longest non-empty run of characters of a class. -/
def run? (p : Char → Bool) (s : List Char) : Option (List Char × List Char) :=
  if (s.takeWhile p).isEmpty then none else some (s.takeWhile p, s.dropWhile p)

theorem takeWhile_dropWhile_iff {p : Char → Bool} {s a r : List Char} :
    s.takeWhile p = a ∧ s.dropWhile p = r ↔
      (∀ c ∈ a, p c = true) ∧ (∀ c ∈ r.head?, p c = false) ∧ s = a ++ r := by
  constructor
  · intro h
    obtain ⟨rfl, rfl⟩ := h
    refine ⟨List.all_eq_true.1 List.all_takeWhile, ?_, List.takeWhile_append_dropWhile.symm⟩
    intro c hc
    have stops := List.head?_dropWhile_not p s
    rwa [Option.mem_def.1 hc] at stops
  · intro h
    obtain ⟨inside, stops, rfl⟩ := h
    rw [List.takeWhile_append_of_pos inside, List.dropWhile_append_of_pos inside]
    cases r with
    | nil => simp
    | cons c r => simp [stops c rfl]

theorem run?_eq_some_iff {p : Char → Bool} {s a r : List Char} :
    run? p s = some (a, r) ↔
      a ≠ [] ∧ (∀ c ∈ a, p c = true) ∧ (∀ c ∈ r.head?, p c = false) ∧ s = a ++ r := by
  rw [← takeWhile_dropWhile_iff, run?]
  split
  case isTrue none =>
    rw [List.isEmpty_iff] at none
    constructor
    · nofun
    · intro h
      obtain ⟨some, rfl, _⟩ := h
      exact absurd none some
  case isFalse some =>
    rw [List.isEmpty_iff] at some
    rw [Option.some.injEq, Prod.mk.injEq, iff_and_self]
    intro h
    obtain ⟨rfl, _⟩ := h
    exact some

end DependencyAudit.Text
