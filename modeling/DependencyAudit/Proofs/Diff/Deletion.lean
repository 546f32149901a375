import DependencyAudit.Proofs.Diff.Script
import DependencyAudit.Proofs.Diff.SharedRun
import DependencyAudit.Proofs.Diff.Stretch

/-!
Scripts that take elements out of a list. The search knows the two lists only, so
it may line up a stretch that stays with an earlier one that reads the same; what
it then misses is removed and added again. The main statement says exactly for
which lists this does not happen.
-/
namespace DependencyAudit.Diff
variable {α : Type} {popular a : List α} {live : α → Bool}

theorem common_of_live {u p r q v : List α} (ha : a = u ++ (p ++ r ++ q) ++ v)
    (alive : ∀ x ∈ p ++ r ++ q, live x) (usual : ∀ x ∈ r, x ∉ popular) :
    CommonRun popular a (a.filter live) (u ++ p).length (u.filter live ++ p).length r := by
  refine ⟨⟨u ++ p, q ++ v, by simp [ha], rfl⟩, ⟨u.filter live ++ p, q ++ v.filter live, ?_, rfl⟩,
    usual⟩
  rw [ha, List.filter_append, List.filter_append, List.filter_eq_self.2 alive]
  simp

/-- No usual run of a live part is longer than the core, and one as long does not
stand before it. -/
theorem FirstLongest.le_of_live {i j : Nat} {core u p r q v : List α}
    (first : FirstLongest popular a (a.filter live) i j core) (ha : a = u ++ (p ++ r ++ q) ++ v)
    (alive : ∀ x ∈ p ++ r ++ q, live x) (usual : ∀ x ∈ r, x ∉ popular) :
    r.length ≤ core.length ∧ (r ≠ [] → r.length = core.length → i ≤ (u ++ p).length) := by
  by_cases empty : r = []
  · exact ⟨by simp [empty], fun ne => absurd empty ne⟩
  · have := first.first _ _ _ (common_of_live ha alive usual) empty
    exact ⟨by omega, fun _ _ => by omega⟩

/-- What stands before a core in its own stretch or in an earlier one is shorter. -/
theorem FirstLongest.lt_of_live {i j : Nat} {core u p r q v : List α}
    (first : FirstLongest popular a (a.filter live) i j core) (ne : core ≠ [])
    (ha : a = u ++ (p ++ r ++ q) ++ v) (alive : ∀ x ∈ p ++ r ++ q, live x)
    (usual : ∀ x ∈ r, x ∉ popular) (before : (u ++ p).length + r.length < i + core.length) :
    r.length < core.length := by
  have pos := List.length_pos_iff.2 ne
  obtain ⟨le, place⟩ := first.le_of_live ha alive usual
  rcases Nat.lt_or_eq_of_le le with shorter | same
  · exact shorter
  · have hr : r ≠ [] := by
      rintro rfl
      rw [List.length_nil] at same
      omega
    have := place hr same
    omega

theorem FirstLongest.le_of_mem_stretches {i j : Nat} {core s r : List α}
    (first : FirstLongest popular a (a.filter live) i j core) (hs : s ∈ stretches live a)
    (inside : r <:+: s) (usual : ∀ x ∈ r, x ∉ popular) : r.length ≤ core.length := by
  obtain ⟨p, q, rfl⟩ := inside
  obtain ⟨before, behind, split⟩ := List.append_of_mem hs
  obtain ⟨u, v, ha, _, _⟩ := eq_of_stretches split
  exact (first.le_of_live ha (live_of_mem_stretches hs) usual).1

/-- The stretch in which a core stands, behind `left`. -/
structure CoreStretch (live : α → Bool) (a left core u before behind v : List α) : Prop where
  whole : a = u ++ (before ++ core ++ behind) ++ v
  place : left = u ++ before
  ended : Ended live u
  begun : Begun live v
  alive : ∀ x ∈ before ++ core ++ behind, live x

namespace CoreStretch
variable {left core u before behind v : List α}

theorem stretches_eq (h : CoreStretch live a left core u before behind v) :
    stretches live a =
      (stretches live u).dropLast ++ (before ++ core ++ behind) :: (stretches live v).tail := by
  rw [h.whole]
  exact stretches_between h.ended h.alive h.begun

/-- A first longest run leads its stretch. -/
theorem leadingRun {j : Nat} (h : CoreStretch live a left core u before behind v)
    (first : FirstLongest popular a (a.filter live) left.length j core) (ne : core ≠ []) :
    LeadingRun popular before core behind := by
  refine ⟨ne, first.common.usual, ?_, ?_⟩
  · intro r inside usual
    exact first.le_of_mem_stretches (by simp [h.stretches_eq]) inside usual
  · rintro r ⟨p, q, eq⟩ usual
    have longer : p ++ r ++ (q ++ core.getLast ne :: behind) = before ++ core ++ behind := by
      calc p ++ r ++ (q ++ core.getLast ne :: behind)
          = p ++ r ++ q ++ [core.getLast ne] ++ behind := by simp
        _ = before ++ (core.dropLast ++ [core.getLast ne]) ++ behind := by simp [eq]
        _ = before ++ core ++ behind := by rw [List.dropLast_append_getLast]
    have inside := congrArg List.length eq
    have place := congrArg List.length h.place
    have pos := List.length_pos_iff.2 ne
    simp only [List.length_append, List.length_dropLast] at inside place
    apply first.lt_of_live ne (longer.symm ▸ h.whole) (longer.symm ▸ h.alive) usual
    simp only [List.length_append]
    omega

/-- Runs of the stretches before it are shorter. -/
theorem lt_of_near {j : Nat} (h : CoreStretch live a left core u before behind v)
    (first : FirstLongest popular a (a.filter live) left.length j core) (ne : core ≠ []) :
    ∀ s ∈ (stretches live u).dropLast, ∀ r, r <:+: s → (∀ x ∈ r, x ∉ popular) →
      r.length < core.length := by
  rintro s hs r ⟨p, q, rfl⟩ usual
  have ends := stretches_of_ended h.ended
  obtain ⟨nearer, further, split⟩ := List.append_of_mem hs
  rw [split, List.append_assoc] at ends
  obtain ⟨u', v', hu, _, _⟩ := eq_of_stretches ends
  have member : p ++ r ++ q ∈ stretches live u := by simp [ends]
  have whole : a = u' ++ (p ++ r ++ q) ++ (v' ++ (before ++ core ++ behind) ++ v) := by
    rw [h.whole, hu]
    simp
  have inside := congrArg List.length hu
  have place := congrArg List.length h.place
  have pos := List.length_pos_iff.2 ne
  simp only [List.length_append] at inside place
  apply first.lt_of_live ne whole (live_of_mem_stretches member) usual
  simp only [List.length_append]
  omega

theorem flatten_near_append (h : CoreStretch live a left core u before behind v) :
    (stretches live u).dropLast.flatten ++ before = left.filter live := by
  have near : (stretches live u).dropLast.flatten = u.filter live := by
    rw [← flatten_stretches, stretches_of_ended h.ended, List.flatten_append, List.dropLast_concat]
    simp
  have alive : before.filter live = before :=
    List.filter_eq_self.2 fun x hx => h.alive x (by simp [hx])
  rw [near, h.place, List.filter_append, alive]

end CoreStretch

section Aligned
variable {lb rb la ra front core rear : List α}

theorem Drawn.live_run (drawn : Drawn popular a (a.filter live) lb rb la ra front core rear) :
    ∀ x ∈ front ++ core ++ rear, live x := by
  intro x hx
  have inFilter : x ∈ a.filter live := by
    rw [drawn.after_eq]
    exact List.mem_append_left _ (List.mem_append_right _ hx)
  exact (List.mem_filter.1 inFilter).2

theorem Drawn.filter_eq (drawn : Drawn popular a (a.filter live) lb rb la ra front core rear) :
    lb.filter live ++ (front ++ core ++ rear) ++ rb.filter live =
      la ++ (front ++ core ++ rear) ++ ra := by
  have eq := drawn.after_eq
  rw [drawn.before_eq, List.filter_append, List.filter_append,
    List.filter_eq_self.2 drawn.live_run] at eq
  exact eq

/-- The run is found at its own place or too early. -/
theorem Drawn.aligned_or (drawn : Drawn popular a (a.filter live) lb rb la ra front core rear) :
    la = lb.filter live ∧ ra = rb.filter live ∨
      la.length < (lb.filter live).length ∧ (rb.filter live).length < ra.length := by
  have eq := drawn.filter_eq
  have lengths := congrArg List.length eq
  simp only [List.length_append] at lengths
  by_cases same : la.length = (lb.filter live).length
  · simp only [List.append_assoc] at eq
    have left := List.append_inj_left eq same.symm
    have right := List.append_inj_right eq same.symm
    simp only [List.append_cancel_left_eq] at right
    exact .inl ⟨left.symm, right.symm⟩
  · refine .inr ?_
    have ne : core ≠ [] := by
      intro empty
      obtain ⟨rfl, rfl, _⟩ := drawn.atFront empty
      exact same rfl
    have own := common_of_live drawn.before_eq drawn.live_run drawn.first.common.usual
    have := drawn.first.first _ _ _ own ne
    simp only [List.length_append] at this
    omega

theorem Drawn.exists_coreStretch
    (drawn : Drawn popular a (a.filter live) lb rb la ra front core rear) :
    ∃ u before behind v, CoreStretch live a (lb ++ front) core u before behind v := by
  obtain ⟨u, before, eqBefore, ended, aliveBefore⟩ := exists_ended live (lb ++ front)
  obtain ⟨behind, v, eqBehind, begun, aliveBehind⟩ := exists_begun live (rear ++ rb)
  refine ⟨u, before, behind, v, ?_, eqBefore, ended, begun, ?_⟩
  · calc a = lb ++ front ++ core ++ (rear ++ rb) := by simp [drawn.before_eq]
      _ = _ := by simp [eqBefore, eqBehind]
  · intro x hx
    rcases List.mem_append.1 hx with hx | hx
    · rcases List.mem_append.1 hx with hx | hx
      · exact aliveBefore x hx
      · exact drawn.live_run x (by simp [hx])
    · exact aliveBehind x hx

/-- A run that is not found at its own place reads at an earlier one, too. -/
theorem Drawn.exists_early_reading
    (drawn : Drawn popular a (a.filter live) lb rb la ra front core rear)
    (early : la.length < (lb.filter live).length) :
    ∃ u v, (lb ++ front).filter live ++ core = u ++ core ++ v ∧ v ≠ [] := by
  have aliveFront : front.filter live = front :=
    List.filter_eq_self.2 fun x hx => drawn.live_run x (by simp [hx])
  have here : la ++ front ++ core <+: a.filter live := by
    refine ⟨rear ++ ra, ?_⟩
    rw [drawn.after_eq]
    simp
  have there : lb.filter live ++ front ++ core <+: a.filter live := by
    refine ⟨rear ++ rb.filter live, ?_⟩
    rw [drawn.after_eq, ← drawn.filter_eq]
    simp
  have found : la ++ front ++ core <+: lb.filter live ++ front ++ core := by
    apply List.prefix_of_prefix_length_le here there
    simp only [List.length_append]
    omega
  obtain ⟨w, eq⟩ := found
  refine ⟨la ++ front, w, by rw [List.filter_append, aliveFront, ← eq], ?_⟩
  rintro rfl
  have := congrArg List.length eq
  simp only [List.length_append, List.length_nil] at this
  omega

theorem Drawn.confusable_of_lt
    (drawn : Drawn popular a (a.filter live) lb rb la ra front core rear)
    (early : la.length < (lb.filter live).length) : Confusable popular (stretches live a) := by
  have ne : core ≠ [] := by
    intro empty
    obtain ⟨rfl, rfl, _⟩ := drawn.atFront empty
    exact Nat.lt_irrefl _ early
  obtain ⟨u, before, behind, v, stands⟩ := drawn.exists_coreStretch
  have reading := drawn.exists_early_reading early
  rw [← stands.flatten_near_append] at reading
  exact .inr ⟨[], (stretches live u).dropLast, before, core, behind, (stretches live v).tail,
    stands.stretches_eq, stands.leadingRun drawn.first ne, stands.lt_of_near drawn.first ne,
    reading⟩

theorem Drawn.stretches_eq
    (drawn : Drawn popular a (a.filter live) lb rb la ra front core rear)
    (left : la = lb.filter live) (right : ra = rb.filter live) :
    ∃ before behind, stretches live a = before ++ (front ++ core ++ rear) :: behind ∧
      stretches live lb = before ++ [[]] ∧ stretches live rb = [] :: behind := by
  have ended : Ended live lb := by
    intro x w eq
    by_contra alive
    refine drawn.back x w (w.filter live) eq ?_
    rw [left, eq, List.filter_append, List.filter_cons_of_pos (by simpa using alive)]
    rfl
  have begun : Begun live rb := by
    intro x w eq
    by_contra alive
    refine drawn.on x w (w.filter live) eq ?_
    rw [right, eq, List.filter_cons_of_pos (by simpa using alive)]
  have whole := stretches_between ended drawn.live_run begun
  rw [← drawn.before_eq] at whole
  exact ⟨_, _, whole, stretches_of_ended ended, stretches_of_begun begun⟩

/-- At its own place a core leads its stretch, and so is the leading run itself. -/
theorem Drawn.eq_of_leading {before run behind : List α}
    (drawn : Drawn popular a (a.filter live) lb rb la ra front core rear)
    (same : front ++ core ++ rear = before ++ run ++ behind)
    (leading : LeadingRun popular before run behind) :
    front = before ∧ core = run ∧ rear = behind := by
  have inside : core <:+: before ++ run ++ behind := ⟨front, rear, same⟩
  have longest := leading.longest core inside drawn.first.common.usual
  have ha : a = lb ++ (before ++ run ++ behind) ++ rb := same ▸ drawn.before_eq
  have alive : ∀ x ∈ before ++ run ++ behind, live x := same ▸ drawn.live_run
  obtain ⟨le, place⟩ := drawn.first.le_of_live ha alive leading.usual
  have len : run.length = core.length := Nat.le_antisymm le longest
  have behindFront := place leading.ne_nil len
  simp only [List.length_append] at behindFront
  have notBefore : ¬ front.length < before.length := by
    intro lt
    have prefixes : front ++ core <+: before ++ run.dropLast := by
      have here : front ++ core <+: before ++ run ++ behind := ⟨rear, same⟩
      have there : before ++ run.dropLast <+: before ++ run ++ behind := by
        rw [List.append_assoc]
        exact (List.prefix_append_right_inj before).2
          ((List.dropLast_prefix run).trans (List.prefix_append run behind))
      apply List.prefix_of_prefix_length_le here there
      simp only [List.length_append, List.length_dropLast]
      omega
    have coreInside : core <:+: before ++ run.dropLast :=
      (List.suffix_append front core).isInfix.trans prefixes.isInfix
    have := leading.first core coreInside drawn.first.common.usual
    omega
  rw [List.append_assoc, List.append_assoc] at same
  obtain ⟨fronts, rest⟩ := List.append_inj same (by omega)
  exact ⟨fronts, List.append_inj rest len.symm⟩

/-- At its own place, a core is not read too early. -/
theorem Drawn.not_early {passed near : List (List α)} {u v : List α}
    (drawn : Drawn popular a (a.filter live) lb rb la ra front core rear)
    (left : la = lb.filter live) (lefts : stretches live lb = passed ++ near ++ [[]])
    (ne : core ≠ []) (early : near.flatten ++ front ++ core = u ++ core ++ v) : v = [] := by
  have flat : lb.filter live = passed.flatten ++ near.flatten := by
    rw [← flatten_stretches, lefts]
    simp
  have again : CommonRun popular a (a.filter live) (lb ++ front).length
      (passed.flatten ++ u).length core := by
    refine ⟨drawn.first.common.before, ⟨passed.flatten ++ u, v ++ rear ++ ra, ?_, rfl⟩,
      drawn.first.common.usual⟩
    calc a.filter live = passed.flatten ++ (near.flatten ++ front ++ core) ++ rear ++ ra := by
          rw [drawn.after_eq, left, flat]
          simp
      _ = passed.flatten ++ u ++ core ++ (v ++ rear ++ ra) := by
          rw [early]
          simp
  have := drawn.first.first _ _ _ again ne
  have lengths := congrArg List.length early
  have lengthLeft := congrArg List.length (left.trans flat)
  simp only [List.length_append] at this lengths lengthLeft
  exact List.length_eq_zero_iff.1 (by omega)

theorem Drawn.hasPopular_iff {before : List (List α)}
    (drawn : Drawn popular a (a.filter live) lb rb la ra front core rear)
    (lefts : stretches live lb = before ++ [[]]) (behind : List (List α)) :
    HasPopular popular (before ++ (front ++ core ++ rear) :: behind) ↔
      HasPopular popular (before ++ [[]]) ∨ HasPopular popular ([] :: behind) := by
  cases before with
  | nil => simp [HasPopular]
  | cons t before =>
      have own : ¬ ∀ x ∈ front ++ core ++ rear, x ∈ popular := by
        intro all
        have ne : core ≠ [] := by
          intro empty
          obtain ⟨rfl, _⟩ := drawn.atFront empty
          have := congrArg List.length lefts
          simp [stretches] at this
        have head := List.getLast_mem ne
        exact drawn.first.common.usual _ head (all _ (by simp [head]))
      simp only [HasPopular, List.cons_append, List.tail_cons, List.mem_append, List.mem_cons,
        List.not_mem_nil, or_false]
      constructor
      · rintro ⟨s, member | rfl | member, ne, all⟩
        · exact .inl ⟨s, .inl member, ne, all⟩
        · exact absurd all own
        · exact .inr ⟨s, member, ne, all⟩
      · rintro (⟨s, member | rfl, ne, all⟩ | ⟨s, member, ne, all⟩)
        · exact ⟨s, .inl member, ne, all⟩
        · exact absurd rfl ne
        · exact ⟨s, .inr (.inr member), ne, all⟩

theorem Drawn.readsEarly_iff {before behind : List (List α)}
    (drawn : Drawn popular a (a.filter live) lb rb la ra front core rear)
    (left : la = lb.filter live)
    (whole : stretches live a = before ++ (front ++ core ++ rear) :: behind)
    (lefts : stretches live lb = before ++ [[]]) :
    ReadsEarly popular (before ++ (front ++ core ++ rear) :: behind) ↔
      ReadsEarly popular (before ++ [[]]) ∨ ReadsEarly popular ([] :: behind) := by
  rw [readsEarly_concat_nil, readsEarly_nil_cons]
  constructor
  · intro early
    have inside : core <:+: front ++ core ++ rear := ⟨front, rear, rfl⟩
    have longest : ∀ t ∈ behind, ∀ r, r <:+: t → (∀ x ∈ r, x ∉ popular) →
        r.length ≤ core.length := by
      intro t ht r inside usual
      exact drawn.first.le_of_mem_stretches (by simp [whole, ht]) inside usual
    rcases early.of_append_cons inside drawn.first.common.usual longest with
      early | early | ⟨passed, near, b, run, e, rfl, same, leading, u, v, eq, ne⟩
    · exact .inl early
    · exact .inr early
    · obtain ⟨rfl, rfl, rfl⟩ := drawn.eq_of_leading same leading
      exact absurd (drawn.not_early left lefts leading.ne_nil eq) ne
  · rintro (early | early)
    · exact early.append_right _
    · exact (early.append_left [_]).append_left before

theorem Drawn.confusable_iff
    (drawn : Drawn popular a (a.filter live) lb rb la ra front core rear)
    (left : la = lb.filter live) (right : ra = rb.filter live) :
    Confusable popular (stretches live a) ↔
      Confusable popular (stretches live lb) ∨ Confusable popular (stretches live rb) := by
  obtain ⟨before, behind, whole, lefts, rights⟩ := drawn.stretches_eq left right
  have populars := drawn.hasPopular_iff lefts behind
  have earlies := drawn.readsEarly_iff left whole lefts
  rw [whole, lefts, rights]
  simp only [Confusable, populars, earlies]
  exact or_or_or_comm

end Aligned

variable [DecidableEq α]

/-- Where the search settles on nothing, all that is live is popular. -/
theorem confusable_iff_of_find? (settled : Shared.find? popular a (a.filter live) = none) :
    Confusable popular (stretches live a) ↔ a.filter live ≠ [] := by
  obtain ⟨populars, heads⟩ := Shared.popular_of_find? settled
  constructor
  · intro confusable empty
    have parts : ∀ s ∈ stretches live a, s = [] := by
      rw [← flatten_stretches] at empty
      exact List.flatten_eq_nil_iff.1 empty
    rcases confusable with ⟨s, hs, ne, _⟩ | ⟨passed, near, b, run, e, later, eq, leading, _⟩
    · exact ne (parts s (List.mem_of_mem_tail hs))
    · exact leading.stretch_ne_nil (parts _ (by simp [eq]))
  · intro ne
    have begun : Begun live a := by
      intro x w eq
      by_contra alive
      refine heads x w (w.filter live) eq ?_
      rw [eq, List.filter_cons_of_pos (by simpa using alive)]
    obtain ⟨x, hx⟩ := List.exists_mem_of_ne_nil _ ne
    have inFlat := hx
    rw [← flatten_stretches, stretches_of_begun begun] at inFlat
    obtain ⟨s, hs, hxs⟩ := List.mem_flatten.1 inFlat
    have tail : s ∈ (stretches live a).tail := by
      rcases List.mem_cons.1 hs with rfl | hs
      · exact absurd hxs List.not_mem_nil
      · exact hs
    refine .inl ⟨s, tail, List.ne_nil_of_mem hxs, ?_⟩
    intro y hy
    have inFilter : y ∈ a.filter live := by
      rw [← flatten_stretches]
      exact List.mem_flatten.2 ⟨s, List.mem_of_mem_tail tail, hy⟩
    exact populars y (List.mem_filter.1 inFilter).1 inFilter

namespace Script

/-- The script that leaves the live elements adds nothing exactly if no stretch of
them can be taken for another. -/
theorem added_between_eq_nil_iff (popular : List α) (live : α → Bool) (a : List α) :
    (between popular a (a.filter live)).added = [] ↔ ¬ Confusable popular (stretches live a) := by
  induction len : a.length using Nat.strong_induction_on generalizing a with
  | _ n ih =>
      rw [between]
      cases found : Shared.find? popular a (a.filter live) with
      | none =>
          have noneLeft := confusable_iff_of_find? found
          simp only [added_replacement, noneLeft, ne_eq, not_not]
      | some s =>
          obtain ⟨front, core, rear, _, drawn⟩ := Shared.drawn_of_find? found
          have shorterLeft := s.leftBefore_lt
          have shorterRight := s.rightBefore_lt
          simp only [added_append, added_map_keep, List.append_nil, List.append_eq_nil_iff]
          rcases drawn.aligned_or with ⟨left, right⟩ | ⟨early, late⟩
          · rw [drawn.confusable_iff left right, not_or, left, right]
            exact and_congr (ih _ (len ▸ shorterLeft) s.leftBefore rfl)
              (ih _ (len ▸ shorterRight) s.rightBefore rfl)
          · have confusable := drawn.confusable_of_lt early
            refine iff_of_false ?_ (not_not_intro confusable)
            have alive : ∀ x ∈ s.rightAfter, live x := by
              intro x hx
              have inFilter : x ∈ a.filter live := by
                rw [s.after_eq]
                exact List.mem_append_right _ hx
              exact (List.mem_filter.1 inFilter).2
            rintro ⟨_, none⟩
            rw [← old_between popular s.rightBefore s.rightAfter] at late
            rw [← new_between popular s.rightBefore s.rightAfter] at alive
            exact added_ne_nil alive (by rwa [new_between]) none

/-- Nothing changes between a list and itself. -/
theorem isChange_of_mem_between_self {popular a : List α} {step : Step α}
    (h : step ∈ between popular a a) : step.isChange = false := by
  have whole : stretches (fun _ => true) a = [a] := stretches_eq_singleton fun _ _ => rfl
  have nothing : (between popular a a).added = [] := by
    have iff := added_between_eq_nil_iff popular (fun _ => true) a
    rw [whole, List.filter_true] at iff
    exact iff.2 (not_confusable_singleton a)
  have olds := (old_perm (between popular a a) 0).length_eq
  have news := (new_perm (between popular a a)).length_eq
  rw [old_between, List.length_append, List.length_map] at olds
  rw [new_between, List.length_append, nothing, List.length_nil] at news
  have noneRemoved : (between popular a a).removedFrom 0 = [] :=
    List.eq_nil_of_length_eq_zero (by omega)
  cases step with
  | keep x => rfl
  | remove x => exact absurd h (remove_not_mem noneRemoved)
  | add x =>
      have member : x ∈ (between popular a a).added := List.mem_filterMap.2 ⟨_, h, rfl⟩
      rw [nothing] at member
      cases member

theorem popular_eq_nil_of_nodup {b : List α} (h : b.Nodup) : Script.popular b = [] := by
  rw [Script.popular]
  split
  · rfl
  · rw [List.filter_eq_nil_iff]
    intro y _
    have once := List.nodup_iff_count.1 h y
    simp only [decide_eq_true_eq]
    omega

end Script
end DependencyAudit.Diff
