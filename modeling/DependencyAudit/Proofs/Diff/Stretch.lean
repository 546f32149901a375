import Mathlib.Data.List.Infix

/-!
Stretches: what a list falls into when some of its elements are taken out. A list
of stretches is confusable if a search for long common runs can take one stretch
for another. The laws say how both notions come apart at one stretch.
-/
namespace DependencyAudit.Diff
variable {α : Type}

/-- Longest parts that are live throughout, empty ones included. -/
def stretches (live : α → Bool) (l : List α) : List (List α) := l.splitOnP fun x => !live x

section Stretches
variable {live : α → Bool}

theorem stretches_cons (x : α) (l : List α) :
    stretches live (x :: l) =
      if live x then (stretches live l).modifyHead (x :: ·) else [] :: stretches live l := by
  rw [stretches, List.splitOnP_cons_eq_if_modifyHead]
  cases live x <;> rfl

theorem stretches_append_cons (u v : List α) {d : α} (dead : live d = false) :
    stretches live (u ++ d :: v) = stretches live u ++ stretches live v :=
  List.splitOnP_append_cons u v (by simp [dead])

theorem stretches_eq_singleton {l : List α} (h : ∀ x ∈ l, live x) : stretches live l = [l] := by
  apply List.splitOnP_eq_singleton
  intro x hx
  simp [h x hx]

theorem exists_stretches_eq_cons (live : α → Bool) (l : List α) :
    ∃ s rest, stretches live l = s :: rest :=
  List.exists_cons_of_ne_nil (List.splitOnP_ne_nil _ l)

theorem flatten_stretches (l : List α) : (stretches live l).flatten = l.filter live := by
  induction l with
  | nil => rfl
  | cons x l ih =>
      rw [stretches_cons, List.filter_cons]
      split
      · obtain ⟨s, rest, eq⟩ := List.exists_cons_of_ne_nil (List.splitOnP_ne_nil _ l)
        change stretches live l = s :: rest at eq
        rw [eq] at ih ⊢
        simpa using ih
      · simpa using ih

/-- No live element stands at the end. -/
def Ended (live : α → Bool) (u : List α) : Prop := ∀ x w, u = w ++ [x] → live x = false

def Begun (live : α → Bool) (v : List α) : Prop := ∀ x w, v = x :: w → live x = false

theorem exists_ended (live : α → Bool) (l : List α) :
    ∃ u s, l = u ++ s ∧ Ended live u ∧ ∀ x ∈ s, live x := by
  induction l using List.reverseRecOn with
  | nil => exact ⟨[], [], rfl, by simp [Ended], nofun⟩
  | append_singleton l x ih =>
      cases hx : live x with
      | true =>
          obtain ⟨u, s, rfl, ended, alive⟩ := ih
          refine ⟨u, s ++ [x], List.append_assoc u s [x], ended, ?_⟩
          intro y hy
          rcases List.mem_append.1 hy with old | new
          · exact alive y old
          · rwa [List.mem_singleton.1 new]
      | false =>
          refine ⟨l ++ [x], [], by simp, ?_, nofun⟩
          intro y w eq
          rw [← (List.cons.inj (List.append_inj' eq rfl).2).1]
          exact hx

theorem exists_begun (live : α → Bool) (l : List α) :
    ∃ s v, l = s ++ v ∧ Begun live v ∧ ∀ x ∈ s, live x := by
  induction l with
  | nil => exact ⟨[], [], rfl, by simp [Begun], nofun⟩
  | cons x l ih =>
      cases hx : live x with
      | true =>
          obtain ⟨s, v, rfl, begun, alive⟩ := ih
          refine ⟨x :: s, v, rfl, begun, ?_⟩
          intro y hy
          rcases List.mem_cons.1 hy with rfl | old
          · exact hx
          · exact alive y old
      | false =>
          refine ⟨[], x :: l, rfl, ?_, nofun⟩
          intro y w eq
          rw [← (List.cons.inj eq).1]
          exact hx

theorem stretches_of_ended {u : List α} (h : Ended live u) :
    stretches live u = (stretches live u).dropLast ++ [[]] := by
  rcases List.eq_nil_or_concat u with rfl | ⟨w, d, rfl⟩
  · rfl
  · rw [List.concat_eq_append] at h ⊢
    rw [stretches_append_cons w [] (h d w rfl)]
    change _ ++ [[]] = (_ ++ [[]]).dropLast ++ [[]]
    rw [List.dropLast_concat]

theorem stretches_of_begun {v : List α} (h : Begun live v) :
    stretches live v = [] :: (stretches live v).tail := by
  cases v with
  | nil => rfl
  | cons d w =>
      have dead := h d w rfl
      rw [stretches_cons, dead]
      rfl

/-- A live part between dead elements is a stretch. -/
theorem stretches_between {u s v : List α} (hu : Ended live u) (hs : ∀ x ∈ s, live x)
    (hv : Begun live v) :
    stretches live (u ++ s ++ v) =
      (stretches live u).dropLast ++ s :: (stretches live v).tail := by
  have right : stretches live (s ++ v) = s :: (stretches live v).tail := by
    cases v with
    | nil => simpa [stretches] using stretches_eq_singleton hs
    | cons d w =>
        have dead := hv d w rfl
        rw [stretches_append_cons s w dead, stretches_eq_singleton hs, stretches_cons, dead]
        rfl
  rcases List.eq_nil_or_concat u with rfl | ⟨w, d, rfl⟩
  · simpa [stretches] using right
  · rw [List.concat_eq_append] at hu ⊢
    have dead := hu d w rfl
    rw [stretches_append_cons w [] dead, List.append_assoc, List.append_assoc,
      List.singleton_append, stretches_append_cons w _ dead, right]
    change _ = (_ ++ [[]]).dropLast ++ _
    rw [List.dropLast_concat]

theorem eq_nil_of_stretches {l : List α} (h : stretches live l = [[]]) : l = [] := by
  cases l with
  | nil => rfl
  | cons x l =>
      obtain ⟨s, rest, eq⟩ := exists_stretches_eq_cons live l
      rw [stretches_cons, eq] at h
      split at h
      · cases h
      · cases h

/-- Every stretch stands somewhere, with the stretches before it before it. -/
theorem eq_of_stretches {l s : List α} {left right : List (List α)}
    (h : stretches live l = left ++ s :: right) :
    ∃ u v, l = u ++ s ++ v ∧ stretches live u = left ++ [[]] ∧ stretches live v = [] :: right := by
  induction l generalizing left s with
  | nil =>
      have single : [[]] = left ++ s :: right := h
      cases left with
      | nil =>
          cases single
          exact ⟨[], [], rfl, rfl, rfl⟩
      | cons t left =>
          have := congrArg List.length single
          simp at this
  | cons x l ih =>
      rw [stretches_cons] at h
      split at h
      case isTrue live_x =>
        obtain ⟨t, rest, eq⟩ := exists_stretches_eq_cons live l
        rw [eq, List.modifyHead_cons] at h
        cases left with
        | nil =>
            cases h
            have first : stretches live l = [] ++ t :: right := eq
            obtain ⟨u, v, rfl, before, after⟩ := ih first
            exact ⟨[], v, by simp [eq_nil_of_stretches before], rfl, after⟩
        | cons t' left =>
            obtain ⟨rfl, rfl⟩ := List.cons.inj h
            have later : stretches live l = (t :: left) ++ s :: right := eq
            obtain ⟨u, v, rfl, before, after⟩ := ih later
            refine ⟨x :: u, v, rfl, ?_, after⟩
            rw [stretches_cons, if_pos live_x, before]
            rfl
      case isFalse dead_x =>
        cases left with
        | nil =>
            obtain ⟨rfl, rfl⟩ := List.cons.inj h
            refine ⟨[], x :: l, rfl, rfl, ?_⟩
            rw [stretches_cons, if_neg dead_x]
        | cons t left =>
            obtain ⟨rfl, rest⟩ := List.cons.inj h
            obtain ⟨u, v, rfl, before, after⟩ := ih rest
            refine ⟨x :: u, v, rfl, ?_, after⟩
            rw [stretches_cons, if_neg dead_x, before]
            rfl

theorem live_of_mem_stretches {l s : List α} (h : s ∈ stretches live l) : ∀ x ∈ s, live x := by
  intro x hx
  have inFilter : x ∈ l.filter live := by
    rw [← flatten_stretches]
    exact List.mem_flatten.2 ⟨s, h, hx⟩
  exact (List.mem_filter.1 inFilter).2

end Stretches

/-- The first of the longest runs of a stretch that have no popular element. -/
structure LeadingRun (popular before run behind : List α) : Prop where
  ne_nil : run ≠ []
  usual : ∀ x ∈ run, x ∉ popular
  longest : ∀ r, r <:+: before ++ run ++ behind → (∀ x ∈ r, x ∉ popular) → r.length ≤ run.length
  first : ∀ r, r <:+: before ++ run.dropLast → (∀ x ∈ r, x ∉ popular) → r.length < run.length

/-- Behind the first stretch there is one that has popular elements and no others. -/
def HasPopular (popular : List α) (parts : List (List α)) : Prop :=
  ∃ s ∈ parts.tail, s ≠ [] ∧ ∀ x ∈ s, x ∈ popular

/-- The leading run of some stretch can be read too early, in what is before its
place: in its own stretch and, across what is taken out, in the stretches just
before that have shorter runs. -/
def ReadsEarly (popular : List α) (parts : List (List α)) : Prop :=
  ∃ passed near before run behind later,
    parts = passed ++ near ++ (before ++ run ++ behind) :: later ∧
    LeadingRun popular before run behind ∧
    (∀ s ∈ near, ∀ r, r <:+: s → (∀ x ∈ r, x ∉ popular) → r.length < run.length) ∧
    ∃ u v, near.flatten ++ before ++ run = u ++ run ++ v ∧ v ≠ []

def Confusable (popular : List α) (parts : List (List α)) : Prop :=
  HasPopular popular parts ∨ ReadsEarly popular parts

section Confusable
variable {popular : List α} {left right : List (List α)}

theorem LeadingRun.stretch_ne_nil {before run behind : List α}
    (h : LeadingRun popular before run behind) : before ++ run ++ behind ≠ [] := by
  simp [h.ne_nil]

theorem ReadsEarly.append_left (h : ReadsEarly popular right) (left : List (List α)) :
    ReadsEarly popular (left ++ right) := by
  obtain ⟨passed, near, before, run, behind, later, rfl, leading⟩ := h
  exact ⟨left ++ passed, near, before, run, behind, later, by simp, leading⟩

theorem ReadsEarly.append_right (h : ReadsEarly popular left) (right : List (List α)) :
    ReadsEarly popular (left ++ right) := by
  obtain ⟨passed, near, before, run, behind, later, rfl, leading⟩ := h
  exact ⟨passed, near, before, run, behind, later ++ right, by simp, leading⟩

theorem readsEarly_concat_nil : ReadsEarly popular (left ++ [[]]) ↔ ReadsEarly popular left := by
  refine ⟨?_, fun h => h.append_right [[]]⟩
  rintro ⟨passed, near, before, run, behind, later, eq, leading, rest⟩
  rcases List.eq_nil_or_concat later with rfl | ⟨later, s, rfl⟩
  · have last := (List.append_inj' eq rfl).2
    exact absurd (List.cons.inj last).1.symm leading.stretch_ne_nil
  · rw [List.concat_eq_append, ← List.cons_append, ← List.append_assoc] at eq
    exact ⟨passed, near, before, run, behind, later, (List.append_inj' eq rfl).1, leading, rest⟩

theorem readsEarly_nil_cons : ReadsEarly popular ([] :: right) ↔ ReadsEarly popular right := by
  refine ⟨?_, fun h => h.append_left [[]]⟩
  rintro ⟨passed, near, before, run, behind, later, eq, leading, short, early⟩
  cases passed with
  | cons s passed =>
      exact ⟨passed, near, before, run, behind, later, (List.cons.inj eq).2, leading, short, early⟩
  | nil =>
      cases near with
      | nil => exact absurd (List.cons.inj eq).1.symm leading.stretch_ne_nil
      | cons s near =>
          obtain ⟨rfl, rest⟩ := List.cons.inj eq
          refine ⟨[], near, before, run, behind, later, rest, leading, ?_, early⟩
          exact fun s hs => short s (List.mem_cons_of_mem _ hs)

theorem not_confusable_singleton (l : List α) : ¬ Confusable popular [l] := by
  rintro (⟨s, hs, _⟩ | ⟨passed, near, before, run, behind, later, eq, leading, _, u, v, early, ne⟩)
  · cases hs
  · have lengths := congrArg List.length eq
    simp only [List.length_append, List.length_cons, List.length_nil] at lengths
    have noNear : near = [] := List.eq_nil_of_length_eq_zero (by omega)
    rw [noNear, List.flatten_nil, List.nil_append] at early
    obtain ⟨v, x, rfl⟩ := (List.eq_nil_or_concat v).resolve_left ne
    have shorter := congrArg List.dropLast early
    rw [List.dropLast_append_of_ne_nil leading.ne_nil, List.concat_eq_append,
      ← List.append_assoc, List.dropLast_concat] at shorter
    have again := leading.first run ⟨u, v, shorter.symm⟩ leading.usual
    omega

/-- Where no element stands twice, nothing can be read too early. -/
theorem not_confusable_of_nodup {parts : List (List α)} (h : parts.flatten.Nodup) :
    ¬ Confusable [] parts := by
  rintro (⟨s, _, ne, popular⟩ | ⟨passed, near, before, run, behind, later, rfl, leading, _, u, v,
    early, ne⟩)
  · obtain ⟨x, hx⟩ := List.exists_mem_of_ne_nil s ne
    cases popular x hx
  · have read : (near.flatten ++ before ++ run).Nodup := by
      refine h.sublist ?_
      simp only [List.flatten_append, List.flatten_cons, List.append_assoc]
      refine List.Sublist.trans ?_ (List.sublist_append_right _ _)
      refine (List.Sublist.refl _).append ((List.Sublist.refl _).append ?_)
      exact List.sublist_append_left _ _
    obtain ⟨v, x, rfl⟩ := (List.eq_nil_or_concat v).resolve_left ne
    obtain ⟨run, y, rfl⟩ := (List.eq_nil_or_concat run).resolve_left leading.ne_nil
    rw [early] at read
    rw [List.concat_eq_append, List.concat_eq_append, ← List.append_assoc,
      ← List.append_assoc] at early
    have same : y = x := by simpa using (List.append_inj' early rfl).2
    have apart := (List.nodup_append.1 read).2.2
    exact apart y (by simp) x (by simp) same

/-- A stretch that has a longest run of all is passed by every early reading, so
an early reading lies on one side of it or is its own. -/
theorem ReadsEarly.of_append_cons {s core : List α} (inside : core <:+: s)
    (usual : ∀ x ∈ core, x ∉ popular)
    (longest : ∀ t ∈ right, ∀ r, r <:+: t → (∀ x ∈ r, x ∉ popular) → r.length ≤ core.length)
    (h : ReadsEarly popular (left ++ s :: right)) :
    ReadsEarly popular left ∨ ReadsEarly popular right ∨
      ∃ passed near before run behind, left = passed ++ near ∧ s = before ++ run ++ behind ∧
        LeadingRun popular before run behind ∧
        ∃ u v, near.flatten ++ before ++ run = u ++ run ++ v ∧ v ≠ [] := by
  obtain ⟨passed, near, before, run, behind, later, eq, leading, short, early⟩ := h
  rcases List.append_eq_append_iff.1 eq with ⟨c, hp, hc⟩ | ⟨c, hl, hc⟩
  · cases c with
    | nil =>
        obtain ⟨same, _⟩ := List.cons.inj hc
        exact .inr (.inr ⟨passed, near, before, run, behind, by simpa using hp.symm, same,
          leading, early⟩)
    | cons t c =>
        obtain ⟨rfl, rfl⟩ := List.cons.inj hc
        have runIn : run <:+: before ++ run ++ behind := ⟨before, behind, rfl⟩
        have le : run.length ≤ core.length :=
          longest (before ++ run ++ behind) (by simp) run runIn leading.usual
        have notNear : s ∉ near := by
          intro hs
          have := short s hs core inside usual
          omega
        rcases List.append_eq_append_iff.1 hp with ⟨d, rfl, hn⟩ | ⟨d, rfl, hd⟩
        · exact absurd (by simp [hn]) notNear
        · cases d with
          | nil =>
              rw [List.nil_append] at hd
              exact absurd (hd ▸ List.mem_cons_self) notNear
          | cons t d =>
              obtain ⟨rfl, rfl⟩ := List.cons.inj hd
              refine .inr (.inl ?_)
              exact ⟨d, near, before, run, behind, later, by simp, leading, short, early⟩
  · cases c with
    | nil =>
        obtain ⟨same, _⟩ := List.cons.inj hc
        exact .inr (.inr ⟨passed, near, before, run, behind, by simpa using hl, same.symm,
          leading, early⟩)
    | cons t c =>
        obtain ⟨rfl, rfl⟩ := List.cons.inj hc
        exact .inl ⟨passed, near, before, run, behind, c, by simp [hl], leading, short, early⟩

end Confusable
end DependencyAudit.Diff
