import Mathlib.Data.List.Forall2

/-!
What becomes of computations that may fail. One in two parts comes to something exactly if both
parts do, and to the fault of the first part that has one. One for each item of a list comes to
what its items come to, in their order, or to the fault of an item.
-/
namespace DependencyAudit

section Parts
variable {ε δ α β : Type} {x : Except ε α}

theorem bind_eq_ok_iff {f : α → Except ε β} {b : β} :
    x >>= f = .ok b ↔ ∃ a, x = .ok a ∧ f a = .ok b := by
  cases x with
  | error e => exact ⟨nofun, nofun⟩
  | ok a =>
      constructor
      · exact fun h => ⟨a, rfl, h⟩
      · intro h
        obtain ⟨_, ⟨⟩, h⟩ := h
        exact h

theorem map_eq_ok_iff {f : α → β} {b : β} : x.map f = .ok b ↔ ∃ a, x = .ok a ∧ f a = b := by
  cases x with
  | error e => exact ⟨nofun, nofun⟩
  | ok a => simp [Except.map]

theorem mapError_eq_ok_iff {f : ε → δ} {a : α} : x.mapError f = .ok a ↔ x = .ok a := by
  cases x with
  | error e => exact ⟨nofun, nofun⟩
  | ok a => simp [Except.mapError]

theorem bind_eq_error_iff {f : α → Except ε β} {e : ε} :
    x >>= f = .error e ↔ x = .error e ∨ ∃ a, x = .ok a ∧ f a = .error e := by
  cases x <;> simp [bind, Except.bind]

theorem mapError_eq_error_iff {f : ε → δ} {d : δ} :
    x.mapError f = .error d ↔ ∃ e, x = .error e ∧ f e = d := by
  cases x <;> simp [Except.mapError]

theorem exists_of_any_toOption {p : α → Bool} (h : x.toOption.any p = true) :
    ∃ a, x = .ok a ∧ p a = true := by
  cases x with
  | error e => cases h
  | ok a => exact ⟨a, rfl, h⟩

end Parts

section Pairs
variable {α β : Type} {R : α → β → Prop} {xs : List α} {ys : List β} {x : α} {y : β}

theorem exists_of_mem_left (h : List.Forall₂ R xs ys) (member : x ∈ xs) : ∃ y ∈ ys, R x y := by
  induction h with
  | nil => cases member
  | cons first _ ih =>
      obtain rfl | member := List.mem_cons.1 member
      · exact ⟨_, List.mem_cons_self, first⟩
      · obtain ⟨y, inside, related⟩ := ih member
        exact ⟨y, List.mem_cons_of_mem _ inside, related⟩

theorem exists_of_mem_right (h : List.Forall₂ R xs ys) (member : y ∈ ys) : ∃ x ∈ xs, R x y :=
  exists_of_mem_left h.flip member

theorem forall₂_and_right {P : β → Prop} (each : ∀ y ∈ ys, P y) (h : List.Forall₂ R xs ys) :
    List.Forall₂ (fun x y => P y ∧ R x y) xs ys :=
  ((List.forall₂_and_left _ _).2 ⟨each, h.flip⟩).flip

end Pairs

section Items
variable {ε α β : Type} {f : α → Except ε β} {items : List α} {results : List β} {e : ε}

theorem mapM_eq_ok_iff :
    items.mapM f = .ok results ↔ List.Forall₂ (fun a b => f a = .ok b) items results := by
  induction items generalizing results with
  | nil =>
      rw [List.mapM_nil, List.forall₂_nil_left_iff]
      exact ⟨fun h => (Except.ok.inj h).symm, fun h => congrArg Except.ok h.symm⟩
  | cons a items ih =>
      simp only [List.mapM_cons, bind_eq_ok_iff, List.forall₂_cons_left_iff, ih]
      constructor
      · rintro ⟨b, first, others, rest, ⟨⟩⟩
        exact ⟨b, others, first, rest, rfl⟩
      · rintro ⟨b, others, first, rest, rfl⟩
        exact ⟨b, first, others, rest, rfl⟩

theorem exists_error_of_mapM (h : items.mapM f = .error e) :
    ∃ item ∈ items, f item = .error e := by
  induction items with
  | nil => cases h
  | cons item items ih =>
      rw [List.mapM_cons] at h
      obtain first | ⟨b, _, h⟩ := bind_eq_error_iff.1 h
      · exact ⟨item, List.mem_cons_self, first⟩
      · obtain rest | ⟨_, _, h⟩ := bind_eq_error_iff.1 h
        · obtain ⟨item, member, refused⟩ := ih rest
          exact ⟨item, List.mem_cons_of_mem _ member, refused⟩
        · cases h

theorem exists_ok_of_mapM (h : items.mapM f = .ok results) :
    ∀ item ∈ items, ∃ b, f item = .ok b := by
  intro item member
  obtain ⟨b, -, found⟩ := exists_of_mem_left (mapM_eq_ok_iff.1 h) member
  exact ⟨b, found⟩

/-- All items come to something exactly if each of them does. -/
theorem exists_mapM_iff :
    (∃ results, items.mapM f = .ok results) ↔ ∀ item ∈ items, ∃ b, f item = .ok b := by
  constructor
  · rintro ⟨results, read⟩
    exact exists_ok_of_mapM read
  · intro each
    cases read : items.mapM f with
    | ok results => exact ⟨results, rfl⟩
    | error e =>
        obtain ⟨item, member, refused⟩ := exists_error_of_mapM read
        obtain ⟨b, found⟩ := each item member
        cases found.symm.trans refused

theorem exists_mapM {P : β → α → Prop} (each : ∀ a ∈ items, ∃ b, f a = .ok b ∧ P b a) :
    ∃ results, items.mapM f = .ok results ∧ List.Forall₂ P results items := by
  obtain ⟨results, read⟩ := exists_mapM_iff.2 fun a member => (each a member).imp fun _ h => h.1
  have both := (List.forall₂_and_left items results).2 ⟨each, mapM_eq_ok_iff.1 read⟩
  refine ⟨results, read, (both.imp fun a b h => ?_).flip⟩
  obtain ⟨⟨c, found, holds⟩, same⟩ := h
  cases found.symm.trans same
  exact holds

theorem mapM_eq_map {g : α → β} (each : ∀ a ∈ items, f a = .ok (g a)) :
    items.mapM f = .ok (items.map g) :=
  mapM_eq_ok_iff.2 (List.forall₂_map_right_iff.2 (List.forall₂_same.2 each))

end Items

end DependencyAudit
