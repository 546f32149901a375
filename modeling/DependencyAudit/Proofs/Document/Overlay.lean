import DependencyAudit.Proofs.Document.Merge

/-!
What stands in tables laid over each other. Along any path the upper table decides as far as it
says something: a value of its own stands, two tables are laid over each other in turn, and where
it says nothing the lower table shows through, unless the upper one has closed the way. Laying
the same table over again changes nothing.
-/
namespace DependencyAudit

section Keys
variable {key : String} {fields others base upper : Fields}

@[simp]
theorem Fields.keys_cons (f : String × Tree) (fields : Fields) :
    keys (f :: fields) = f.1 :: keys fields := rfl

theorem Fields.keys_put (key : String) (value : Tree) (fields : Fields) :
    keys (put key value fields) =
      if key ∈ keys fields then keys fields else keys fields ++ [key] := by
  induction fields with
  | nil => rfl
  | cons f fields ih =>
      rw [put]
      by_cases here : f.1 = key
      · simp [here]
      · by_cases behind : key ∈ keys fields <;> simp [here, Ne.symm here, ih, behind]

/-- A table is known by the order of its keys and by what stands under each. -/
theorem Fields.eq_of_find?_eq (distinct : (keys fields).Nodup) (same : keys others = keys fields)
    (each : ∀ key, find? key others = find? key fields) : others = fields := by
  induction fields generalizing others with
  | nil => exact List.map_eq_nil_iff.1 same
  | cons f fields ih =>
      cases others with
      | nil => cases same
      | cons g others =>
          obtain ⟨first, rest⟩ := List.nodup_cons.1 distinct
          obtain ⟨sameKey, behind⟩ := List.cons.inj same
          have entry : g = f := by
            have here := each f.1
            simp only [find?, sameKey, if_true, Option.some.injEq] at here
            exact Prod.ext sameKey here
          subst entry
          have elsewhere : ∀ key, find? key others = find? key fields := by
            intro key
            by_cases here : g.1 = key
            · rw [← here, find?_eq_none first, find?_eq_none fun mem => first (behind ▸ mem)]
            · simpa [find?, here] using each key
          rw [ih rest behind elsewhere]

/-- Keys of the lower table keep their places, and new ones follow in the order of the upper. -/
theorem Fields.keys_over (distinct : (keys upper).Nodup) (base : Fields) :
    keys (Fields.over base upper) =
      keys base ++ (keys upper).filter fun key => key ∉ keys base := by
  induction upper generalizing base with
  | nil => simp [Fields.over, keys]
  | cons f upper ih =>
      obtain ⟨first, rest⟩ := List.nodup_cons.1 distinct
      have step : Fields.over base (f :: upper)
          = Fields.over (put f.1 (Tree.overSome (find? f.1 base) f.2) base) upper := rfl
      rw [step, ih rest, keys_put]
      by_cases old : f.1 ∈ keys base
      · simp [old]
      · -- The new key is not given again, so it makes no difference to the keys behind it.
        have apart : ∀ key ∈ keys upper, key ≠ f.1 := by
          rintro key mem rfl
          exact first mem
        have behind : (keys upper).filter (fun key => key ∉ keys base ++ [f.1]) =
            (keys upper).filter fun key => key ∉ keys base :=
          List.filter_congr fun key mem => by simp [apart key mem]
        rw [if_neg old, behind]
        simp [old]

theorem Fields.keys_over_of_subset (distinct : (keys upper).Nodup)
    (within : ∀ key ∈ keys upper, key ∈ keys base) : keys (Fields.over base upper) = keys base := by
  have nothing : (keys upper).filter (fun key => key ∉ keys base) = [] :=
    List.filter_eq_nil_iff.2 fun key mem => by simp [within key mem]
  rw [keys_over distinct, nothing, List.append_nil]

end Keys

section Paths
variable {base t value : Tree} {below : Option Tree} {path : List String} {key : String}
  {fields lower upper : Fields}

theorem Tree.table_or_bare (below : Option Tree) :
    (∃ lower, below = some (.table lower)) ∨ ∀ lower, below ≠ some (.table lower) := by
  by_cases h : ∃ lower, below = some (.table lower)
  · exact .inl h
  · exact .inr (not_exists.1 h)

/-- Only a table below shows through a table above it. -/
theorem Tree.overSome_of_no_table (h : ∀ lower, below ≠ some (.table lower)) (t : Tree) :
    overSome below t = t := by
  cases t with
  | scalar _ | list _ => exact overSome_of_not_table below rfl
  | table fields =>
      cases below with
      | none => rfl
      | some base =>
          cases base with
          | scalar _ | list _ => rfl
          | table lower => exact absurd rfl (h lower)

theorem Tree.at?_of_no_table (h : ∀ lower, below ≠ some (.table lower)) (key : String)
    (path : List String) : below.bind (at? · (key :: path)) = none := by
  cases below with
  | none => rfl
  | some base =>
      cases base with
      | scalar _ | list _ => rfl
      | table lower => exact absurd rfl (h lower)

/-- Where the upper tree says something, it is laid over what stands there below. -/
theorem Tree.at?_overSome (once : t.KeyedOnce) (found : t.at? path = some value)
    (below : Option Tree) :
    (overSome below t).at? path = some (overSome (below.bind (at? · path)) value) := by
  induction path generalizing t below with
  | nil =>
      cases found
      cases below <;> rfl
  | cons key path ih =>
      cases t with
      | scalar _ | list _ => cases found
      | table fields =>
          obtain ⟨inner, here, found⟩ := Option.bind_eq_some_iff.1 found
          obtain ⟨lower, rfl⟩ | bare := table_or_bare below
          · have entry : Fields.find? key (Fields.over lower fields)
                = some (overSome (Fields.find? key lower) inner) := by
              rw [Fields.find?_over once.distinct, here]
            change (Fields.find? key (Fields.over lower fields)).bind (at? · path) = _
            rw [entry]
            exact ih (once.of_find? here) found (Fields.find? key lower)
          · rw [overSome_of_no_table bare, at?_of_no_table bare]
            change (Fields.find? key fields).bind (at? · path) = _
            rw [here]
            exact found

/-- Something that is no table stands on the way, or at the end of it. -/
def Tree.Closes (t : Tree) (path : List String) : Prop :=
  ∃ front value, front <+: path ∧ t.at? front = some value ∧ value.isTable = false

theorem Tree.closes_of_not_table (leaf : t.isTable = false) (path : List String) :
    t.Closes path :=
  ⟨[], t, List.nil_prefix, rfl, leaf⟩

theorem Tree.closes_table_iff :
    (Tree.table fields).Closes (key :: path) ↔
      ∃ inner, Fields.find? key fields = some inner ∧ inner.Closes path := by
  constructor
  · intro h
    obtain ⟨front, value, before, found, leaf⟩ := h
    cases front with
    | nil =>
        cases found
        cases leaf
    | cons first front =>
        obtain ⟨rfl, behind⟩ := List.cons_prefix_cons.1 before
        obtain ⟨inner, here, found⟩ := Option.bind_eq_some_iff.1 found
        exact ⟨inner, here, front, value, behind, found, leaf⟩
  · intro h
    obtain ⟨inner, here, front, value, before, found, leaf⟩ := h
    exact ⟨key :: front, value, List.cons_prefix_cons.2 ⟨rfl, before⟩,
      Option.bind_eq_some_iff.2 ⟨inner, here, found⟩, leaf⟩

/-- Where the upper tree says nothing, the lower one shows through if the way is open. -/
theorem Tree.at?_overSome_of_none (once : t.KeyedOnce) (silent : t.at? path = none)
    (below : Option Tree) :
    (overSome below t).at? path = some value ↔
      ¬ t.Closes path ∧ below.bind (at? · path) = some value := by
  induction path generalizing t below with
  | nil => cases silent
  | cons key path ih =>
      cases t with
      | scalar _ | list _ =>
          rw [overSome_of_not_table below rfl, silent]
          exact ⟨nofun, fun h => absurd (closes_of_not_table rfl _) h.1⟩
      | table fields =>
          obtain ⟨lower, rfl⟩ | bare := table_or_bare below
          · rw [closes_table_iff]
            change (Fields.find? key (Fields.over lower fields)).bind (at? · path) = _ ↔
              _ ∧ (Fields.find? key lower).bind (at? · path) = _
            rw [Fields.find?_over once.distinct]
            cases here : Fields.find? key fields with
            | none => simp
            | some inner =>
                have silent : inner.at? path = none := by simpa [at?, here] using silent
                simpa using ih (once.of_find? here) silent (Fields.find? key lower)
          · rw [overSome_of_no_table bare, at?_of_no_table bare, silent]
            simp

end Paths

section Again
variable {base upper : Fields}

/-- An entry is put after another, and each of them is laid over what stood there. -/
theorem Tree.KeyedOnce.overSome {t : Tree} (once : t.KeyedOnce) (below : Option Tree)
    (lower : ∀ base, below = some base → base.KeyedOnce) : (t.overSome below).KeyedOnce := by
  induction once generalizing below with
  | scalar s => cases below <;> exact .scalar s
  | list each => cases below <;> exact .list each
  | @table upper distinct each ih =>
      obtain ⟨base, rfl⟩ | bare := table_or_bare below
      · replace lower := lower _ rfl
        clear distinct
        change (Tree.table (Fields.over base upper)).KeyedOnce
        induction upper generalizing base with
        | nil => exact lower
        | cons f upper onward =>
            have entry : (Tree.overSome (Fields.find? f.1 base) f.2).KeyedOnce :=
              ih f List.mem_cons_self _ fun _ found => lower.of_find? found
            exact onward (fun g mem => each g (List.mem_cons_of_mem f mem))
              (fun g mem => ih g (List.mem_cons_of_mem f mem)) _ (lower.put entry)
      · rw [overSome_of_no_table bare]
        exact .table distinct each

/-- A table laid over itself is the same, whatever stands in it. -/
theorem Tree.overSome_self {t : Tree} (once : t.KeyedOnce) : overSome (some t) t = t := by
  induction once with
  | scalar _ | list _ => rfl
  | @table fields distinct each ih =>
      change Tree.table (Fields.over fields fields) = _
      congr 1
      refine Fields.eq_of_find?_eq distinct ?_ fun key => ?_
      · exact Fields.keys_over_of_subset distinct fun _ => id
      · rw [Fields.find?_over distinct]
        cases here : Fields.find? key fields with
        | none => rfl
        | some value => exact congrArg some (ih _ (Fields.mem_of_find? here))

theorem Fields.over_self (once : (Tree.table base).KeyedOnce) : Fields.over base base = base :=
  Tree.table.inj (Tree.overSome_self once)

/-- What was laid over a tree makes no difference when it is laid over it again. -/
theorem Tree.overSome_overSome {t : Tree} (once : t.KeyedOnce) (below : Option Tree)
    (lower : ∀ base, below = some base → base.KeyedOnce) :
    overSome (some (overSome below t)) t = overSome below t := by
  induction once generalizing below with
  | scalar _ | list _ => cases below <;> rfl
  | @table upper distinct each ih =>
      obtain ⟨base, rfl⟩ | bare := table_or_bare below
      · have merged := (KeyedOnce.table distinct each).overSome _ lower
        replace lower := lower _ rfl
        change Tree.table (Fields.over (Fields.over base upper) upper) =
          Tree.table (Fields.over base upper)
        congr 1
        have within : ∀ key ∈ Fields.keys upper, key ∈ Fields.keys (Fields.over base upper) := by
          intro key mem
          by_cases old : key ∈ Fields.keys base <;> simp [Fields.keys_over distinct, mem, old]
        refine Fields.eq_of_find?_eq merged.distinct
          (Fields.keys_over_of_subset distinct within) fun key => ?_
        rw [Fields.find?_over distinct, Fields.find?_over distinct]
        cases here : Fields.find? key upper with
        | none => rfl
        | some value =>
            exact congrArg some
              (ih _ (Fields.mem_of_find? here) _ fun _ found => lower.of_find? found)
      · rw [overSome_of_no_table bare]
        exact overSome_self (.table distinct each)

theorem Fields.over_over (lower : (Tree.table base).KeyedOnce)
    (higher : (Tree.table upper).KeyedOnce) :
    Fields.over (Fields.over base upper) upper = Fields.over base upper :=
  Tree.table.inj (Tree.overSome_overSome higher (some (.table base))
    fun _ same => Option.some.inj same ▸ lower)

end Again

/-- What a table holds, along every path and in which order, that is made by laying one table
over another. -/
structure Fields.Laid (base upper merged : Fields) : Prop where
  set : ∀ path value, (Tree.table upper).at? path = some value → value.isTable = false →
    (Tree.table merged).at? path = some value
  kept : ∀ path value, (Tree.table base).at? path = some value →
    (Tree.table upper).at? path = none → ¬ (Tree.table upper).Closes path →
      (Tree.table merged).at? path = some value
  joined : ∀ path lower higher, (Tree.table base).at? path = some (.table lower) →
    (Tree.table upper).at? path = some (.table higher) →
      (Tree.table merged).at? path = some (.table (Fields.over lower higher)) ∧
        keys (Fields.over lower higher) =
          keys lower ++ (keys higher).filter fun key => key ∉ keys lower
  added : ∀ path higher, (Tree.table upper).at? path = some (.table higher) →
    (∀ lower, (Tree.table base).at? path ≠ some (.table lower)) →
      (Tree.table merged).at? path = some (.table higher)
  source : ∀ path value, (Tree.table merged).at? path = some value →
    (∃ set, (Tree.table upper).at? path = some set) ∨ (Tree.table base).at? path = some value

section Laid
variable {base upper : Fields}

theorem Tree.KeyedOnce.cons {key : String} {value : Tree} {fields : Fields}
    (rest : (Tree.table fields).KeyedOnce) (new : key ∉ Fields.keys fields)
    (once : value.KeyedOnce) : (Tree.table ((key, value) :: fields)).KeyedOnce := by
  cases rest with
  | table distinct each =>
      exact .table (List.nodup_cons.2 ⟨new, distinct⟩) (List.forall_mem_cons.2 ⟨once, each⟩)

theorem Tree.KeyedOnce.of_at? {t value : Tree} {path : List String} (once : t.KeyedOnce)
    (found : t.at? path = some value) : value.KeyedOnce := by
  induction path generalizing t with
  | nil =>
      cases found
      exact once
  | cons key path ih =>
      cases t with
      | scalar _ | list _ => cases found
      | table fields =>
          obtain ⟨inner, here, found⟩ := Option.bind_eq_some_iff.1 found
          exact ih (once.of_find? here) found

/-- Laying one table over another sets exactly what the upper one holds, and is done once and
for all. -/
theorem Fields.laid_over (lower : (Tree.table base).KeyedOnce)
    (higher : (Tree.table upper).KeyedOnce) :
    Laid base upper (Fields.over base upper) ∧
      (Tree.table (Fields.over base upper)).KeyedOnce ∧
      Fields.over base [] = base ∧ Fields.over base base = base ∧
      Fields.over (Fields.over base upper) upper = Fields.over base upper := by
  have said (path : List String) {value : Tree} (found : (Tree.table upper).at? path = some value) :
      (Tree.table (Fields.over base upper)).at? path =
        some (Tree.overSome ((Tree.table base).at? path) value) :=
    Tree.at?_overSome higher found (some (.table base))
  have silent (path : List String) (value : Tree) (unsaid : (Tree.table upper).at? path = none) :
      (Tree.table (Fields.over base upper)).at? path = some value ↔
        ¬ (Tree.table upper).Closes path ∧ (Tree.table base).at? path = some value :=
    Tree.at?_overSome_of_none higher unsaid (some (.table base))
  refine ⟨⟨?set, ?kept, ?joined, ?added, ?source⟩, ?once, rfl, over_self lower,
    over_over lower higher⟩
  case set =>
    intro path value found leaf
    rw [said path found, Tree.overSome_of_not_table _ leaf]
  case kept =>
    intro path value found unsaid opens
    exact (silent path value unsaid).2 ⟨opens, found⟩
  case joined =>
    intro path below above found found'
    refine ⟨by rw [said path found', found]; rfl, ?_⟩
    exact keys_over (higher.of_at? found').distinct below
  case added =>
    intro path above found bare
    rw [said path found, Tree.overSome_of_no_table bare]
  case source =>
    intro path value found
    cases above : (Tree.table upper).at? path with
    | some set => exact .inl ⟨set, rfl⟩
    | none => exact .inr ((silent path value above).1 found).2
  case once =>
    exact higher.overSome (some (.table base)) fun _ same => Option.some.inj same ▸ lower

/-- A table with a new entry, over one that has a text where the upper has a table. -/
theorem Fields.laid_over_of_sizes :
    let base : Fields :=
      [("mode", .text "auto"), ("sizes", .table [("guava", .int 3), ("okio", .int 1)]),
        ("report", .text "short")]
    let upper : Fields :=
      [("evidence", .table []), ("sizes", .table [("okio", .int 2), ("zip", .int 4)]),
        ("report", .table [("all", .bool true)])]
    (Tree.table base).KeyedOnce ∧ (Tree.table upper).KeyedOnce ∧
      Laid base upper
        [("mode", .text "auto"),
          ("sizes", .table [("guava", .int 3), ("okio", .int 2), ("zip", .int 4)]),
          ("report", .table [("all", .bool true)]), ("evidence", .table [])] := by
  intro base upper
  have empty := Tree.keyedOnce_empty
  have sizes : (Tree.table [("guava", .int 3), ("okio", .int 1)]).KeyedOnce :=
    (empty.cons (by decide) (.scalar _)).cons (by decide) (.scalar _)
  have lower : (Tree.table base).KeyedOnce :=
    ((empty.cons (by decide) (.scalar _)).cons (by decide) sizes).cons (by decide) (.scalar _)
  have otherSizes : (Tree.table [("okio", .int 2), ("zip", .int 4)]).KeyedOnce :=
    (empty.cons (by decide) (.scalar _)).cons (by decide) (.scalar _)
  have report : (Tree.table [("all", .bool true)]).KeyedOnce :=
    empty.cons (by decide) (.scalar _)
  have higher : (Tree.table upper).KeyedOnce :=
    ((empty.cons (by decide) report).cons (by decide) otherSizes).cons (by decide) empty
  exact ⟨lower, higher, (laid_over lower higher).1⟩

end Laid
end DependencyAudit
