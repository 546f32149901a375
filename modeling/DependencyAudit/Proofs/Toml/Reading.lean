import DependencyAudit.Proofs.Document.Merge
import DependencyAudit.Proofs.Results
import DependencyAudit.Toml.Reading
import Mathlib.Data.List.Infix

/-!
What is read from a TOML text gives each of its keys once, at any depth: an entry is put only
where nothing stands, and a table that is entered again is changed where it is.
-/
namespace DependencyAudit.Toml

section Nest
variable {fields after : Fields} {key : String} {way : Key} {v : Tree} {items : List Tree}
  {change : Fields → Option Fields} {throughLists : Bool}

theorem keyedOnce_append (h : (Tree.list items).KeyedOnce) (last : v.KeyedOnce) :
    (Tree.list (items ++ [v])).KeyedOnce := by
  cases h with
  | list each =>
      refine .list fun t member => ?_
      obtain old | new := List.mem_append.1 member
      · exact each t old
      · exact List.mem_singleton.1 new ▸ last

theorem keyedOnce_replaceLast (h : (Tree.list items).KeyedOnce) (last : v.KeyedOnce) :
    (Tree.list (items.dropLast ++ [v])).KeyedOnce := by
  cases h with
  | list each =>
      exact keyedOnce_append (.list fun t member => each t (List.mem_of_mem_dropLast member)) last

theorem keyedOnce_addEntry (h : (Tree.table fields).KeyedOnce) (once : v.KeyedOnce)
    (added : addEntry key v fields = some after) : (Tree.table after).KeyedOnce := by
  unfold addEntry at added
  split at added
  case h_1 =>
    cases added
    exact h.put once
  case h_2 => cases added

theorem keyedOnce_addToList (h : (Tree.table fields).KeyedOnce)
    (added : addToList key fields = some after) : (Tree.table after).KeyedOnce := by
  have fresh : (Tree.list []).KeyedOnce := .list nofun
  unfold addToList at added
  split at added
  case h_1 =>
    cases added
    exact h.put (keyedOnce_append fresh Tree.keyedOnce_empty)
  case h_2 items found =>
    cases added
    exact h.put (keyedOnce_append (h.of_find? found) Tree.keyedOnce_empty)
  case h_3 => cases added

/-- A change of the last table on a way keeps keys single all along the way. -/
theorem keyedOnce_inNest
    (kept : ∀ {inner after : Fields}, (Tree.table inner).KeyedOnce → change inner = some after →
      (Tree.table after).KeyedOnce)
    (h : (Tree.table fields).KeyedOnce)
    (changed : inNest throughLists change way fields = some after) :
    (Tree.table after).KeyedOnce := by
  induction way generalizing fields after with
  | nil => exact kept h changed
  | cons part rest ih =>
      rw [inNest.eq_def] at changed
      dsimp only at changed
      split at changed
      case h_1 =>
        obtain ⟨inner, inside, same⟩ := Option.bind_eq_some_iff.1 changed
        cases same
        exact h.put (ih Tree.keyedOnce_empty inside)
      case h_2 below found =>
        obtain ⟨inner, inside, same⟩ := Option.bind_eq_some_iff.1 changed
        cases same
        exact h.put (ih (h.of_find? found) inside)
      case h_3 items found =>
        split at changed
        case h_1 below last =>
          obtain ⟨inner, inside, same⟩ := Option.bind_eq_some_iff.1 changed
          cases same
          have items := h.of_find? found
          cases items with
          | list each =>
              have inner := ih (each _ (List.mem_of_getLast? last)) inside
              exact h.put (keyedOnce_replaceLast (.list each) inner)
        case h_2 => cases changed
      case h_4 => cases changed

end Nest

section Value
variable {room fuel : Nat} {s rest : List Char} {key : Key} {t after : Inline} {v : Tree}

theorem Inline.keyedOnce_add (h : (Tree.table t.fields).KeyedOnce) (once : v.KeyedOnce)
    (added : t.add key v = some after) : (Tree.table after.fields).KeyedOnce := by
  unfold Inline.add at added
  split at added
  case isTrue => cases added
  case isFalse =>
    obtain ⟨fields, inside, same⟩ := Option.bind_eq_some_iff.1 added
    cases same
    exact keyedOnce_inNest (fun inner => keyedOnce_addEntry inner once) h inside

/-- What the three readers of values give as long as their fuel lasts. -/
structure ReadsOnce (fuel : Nat) : Prop where
  value : ∀ {room s v rest}, value room fuel s = .ok (v, rest) → v.KeyedOnce
  items : ∀ {room s items rest}, itemsFrom room fuel s = .ok (items, rest) →
    (Tree.list items).KeyedOnce
  entries : ∀ {room s rest} {t after : Inline}, (Tree.table t.fields).KeyedOnce →
    entriesFrom room fuel t s = .ok (after, rest) → (Tree.table after.fields).KeyedOnce

theorem ReadsOnce.value_succ (h : ReadsOnce fuel)
    (read : Toml.value room (fuel + 1) s = .ok (v, rest)) : v.KeyedOnce := by
  rw [Toml.value.eq_def] at read
  dsimp only at read
  split at read
  case h_1 =>
    split at read
    case isTrue => cases read
    case isFalse =>
      obtain ⟨r, _, read⟩ := bind_eq_ok_iff.1 read
      split at read
      case h_1 =>
        cases read
        exact .list nofun
      case h_2 =>
        obtain ⟨⟨items, r⟩, inside, same⟩ := bind_eq_ok_iff.1 read
        cases same
        exact h.items inside
  case h_2 =>
    split at read
    case isTrue => cases read
    case isFalse =>
      split at read
      case h_1 =>
        cases read
        exact Tree.keyedOnce_empty
      case h_2 =>
        obtain ⟨⟨t, r⟩, inside, same⟩ := bind_eq_ok_iff.1 read
        cases same
        exact h.entries Tree.keyedOnce_empty inside
  case h_3 =>
    cases read? : scalar s with
    | error f =>
        rw [read?] at read
        cases read
    | ok pair =>
        rw [read?] at read
        cases read
        exact .scalar pair.1

theorem ReadsOnce.items_succ {items : List Tree} (h : ReadsOnce fuel)
    (read : itemsFrom room (fuel + 1) s = .ok (items, rest)) : (Tree.list items).KeyedOnce := by
  rw [itemsFrom] at read
  obtain ⟨⟨item, r⟩, first, read⟩ := bind_eq_ok_iff.1 read
  have one : (Tree.list [item]).KeyedOnce :=
    .list fun t member => List.mem_singleton.1 member ▸ h.value first
  obtain ⟨r, _, read⟩ := bind_eq_ok_iff.1 read
  split at read
  case h_1 =>
    cases read
    exact one
  case h_2 =>
    obtain ⟨r, _, read⟩ := bind_eq_ok_iff.1 read
    split at read
    case h_1 =>
      cases read
      exact one
    case h_2 =>
      obtain ⟨⟨items, r⟩, others, same⟩ := bind_eq_ok_iff.1 read
      cases same
      have others := h.items others
      cases others with
      | list each => exact .list (List.forall_mem_cons.2 ⟨h.value first, each⟩)
  case h_3 => cases read

theorem ReadsOnce.entries_succ (h : ReadsOnce fuel) (once : (Tree.table t.fields).KeyedOnce)
    (read : entriesFrom room (fuel + 1) t s = .ok (after, rest)) :
    (Tree.table after.fields).KeyedOnce := by
  rw [entriesFrom] at read
  obtain ⟨⟨key, r⟩, _, read⟩ := bind_eq_ok_iff.1 read
  dsimp only at read
  split at read
  case h_1 =>
    obtain ⟨⟨v, r⟩, entry, read⟩ := bind_eq_ok_iff.1 read
    dsimp only at read
    split at read
    case h_1 => cases read
    case h_2 t added =>
      have once := Inline.keyedOnce_add once (h.value entry) added
      split at read
      case h_1 =>
        cases read
        exact once
      case h_2 => exact h.entries once read
      case h_3 => cases read
  case h_2 => cases read

theorem readsOnce (fuel : Nat) : ReadsOnce fuel := by
  induction fuel with
  | zero => exact ⟨nofun, nofun, fun _ => nofun⟩
  | succ fuel ih => exact ⟨ih.value_succ, ih.items_succ, ih.entries_succ⟩

end Value

section Statement
variable {fuel : Nat} {s rest : List Char} {key : Key} {σ τ : State} {v : Tree}

theorem State.keyedOnce_declareTable (h : (Tree.table σ.fields).KeyedOnce)
    (declared : σ.declareTable key = some τ) : (Tree.table τ.fields).KeyedOnce := by
  unfold State.declareTable at declared
  split at declared
  case isTrue => cases declared
  case isFalse =>
    obtain ⟨fields, inside, same⟩ := Option.bind_eq_some_iff.1 declared
    cases same
    refine keyedOnce_inNest (fun inner same => ?_) h inside
    cases same
    exact inner

theorem State.keyedOnce_declareListItem (h : (Tree.table σ.fields).KeyedOnce)
    (declared : σ.declareListItem key = some τ) : (Tree.table τ.fields).KeyedOnce := by
  unfold State.declareListItem at declared
  split at declared
  case isTrue => cases declared
  case isFalse =>
    obtain ⟨fields, inside, same⟩ := Option.bind_eq_some_iff.1 declared
    cases same
    exact keyedOnce_inNest (fun inner => keyedOnce_addToList inner) h inside

theorem State.keyedOnce_addEntry (h : (Tree.table σ.fields).KeyedOnce) (once : v.KeyedOnce)
    (added : σ.addEntry key v = some τ) : (Tree.table τ.fields).KeyedOnce := by
  unfold State.addEntry at added
  dsimp only at added
  split at added
  case isTrue => cases added
  case isFalse =>
    obtain ⟨fields, inside, same⟩ := Option.bind_eq_some_iff.1 added
    cases same
    exact keyedOnce_inNest (fun inner => Toml.keyedOnce_addEntry inner once) h inside

theorem State.keyedOnce_settle (h : (Tree.table σ.fields).KeyedOnce) :
    (Tree.table σ.settle.fields).KeyedOnce := h

theorem orRedefined_eq_ok_iff {made : Option State} :
    orRedefined s made = .ok τ ↔ made = some τ := by
  cases made with
  | none => exact ⟨nofun, nofun⟩
  | some σ => simp [orRedefined]

/-- One statement keeps keys single. -/
theorem keyedOnce_statement (h : (Tree.table σ.fields).KeyedOnce)
    (read : statement σ s = .ok (τ, rest)) : (Tree.table τ.fields).KeyedOnce := by
  unfold statement at read
  split at read
  case h_1 =>
    obtain ⟨_, _, read⟩ := bind_eq_ok_iff.1 read
    obtain ⟨_, declared, read⟩ := bind_eq_ok_iff.1 read
    have once := State.keyedOnce_declareListItem (State.keyedOnce_settle h)
      (orRedefined_eq_ok_iff.1 declared)
    split at read <;> cases read
    exact once
  case h_2 =>
    obtain ⟨_, _, read⟩ := bind_eq_ok_iff.1 read
    obtain ⟨_, declared, read⟩ := bind_eq_ok_iff.1 read
    have once := State.keyedOnce_declareTable (State.keyedOnce_settle h)
      (orRedefined_eq_ok_iff.1 declared)
    split at read <;> cases read
    exact once
  case h_3 =>
    cases read
    exact h
  case h_4 =>
    split at read
    case isTrue =>
      obtain ⟨_, _, read⟩ := bind_eq_ok_iff.1 read
      dsimp only at read
      split at read
      case h_1 =>
        obtain ⟨⟨v, r⟩, entry, read⟩ := bind_eq_ok_iff.1 read
        obtain ⟨_, added, same⟩ := bind_eq_ok_iff.1 read
        cases same
        have once := (readsOnce _).value entry
        exact State.keyedOnce_addEntry h once (orRedefined_eq_ok_iff.1 added)
      case h_2 => cases read
    case isFalse => cases read
  case h_5 =>
    cases read
    exact h

theorem keyedOnce_statements (h : (Tree.table σ.fields).KeyedOnce)
    (read : statements fuel σ s = .ok τ) : (Tree.table τ.fields).KeyedOnce := by
  induction fuel generalizing σ s with
  | zero => cases read
  | succ fuel ih =>
      rw [statements] at read
      split at read
      case h_1 =>
        cases read
        exact h
      case h_2 => exact ih h read
      case h_3 =>
        obtain ⟨⟨ρ, r⟩, first, read⟩ := bind_eq_ok_iff.1 read
        obtain ⟨_, _, read⟩ := bind_eq_ok_iff.1 read
        have once := keyedOnce_statement h first
        split at read
        case h_1 =>
          cases read
          exact once
        case h_2 => exact ih once read
        case h_3 => cases read

theorem keyedOnce_read {fields : Fields} (h : read s = .ok fields) :
    (Tree.table fields).KeyedOnce := by
  unfold read at h
  cases run : statements (s.length + 1) .start s with
  | error f =>
      rw [run] at h
      cases h
  | ok σ =>
      rw [run] at h
      cases h
      exact keyedOnce_statements Tree.keyedOnce_empty run

end Statement

end DependencyAudit.Toml
