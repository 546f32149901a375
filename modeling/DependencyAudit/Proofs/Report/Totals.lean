import DependencyAudit.Proofs.Number.Sum
import DependencyAudit.Proofs.Report.Payload
import DependencyAudit.Proofs.Verdict.Sound

/-!
Totals against the verdicts that they are taken of. Counts are numbers of occurrences, so they
do not depend on the order of the verdicts and add up over lists of them. Of an audit there are as
many flagged verdicts as ones described as unused, and the sizes of the flagged ones make up no
more than the sizes of all.
-/
namespace DependencyAudit

/-- The count that is listed for a value; what is not listed counts nothing. -/
def counted {α : Type} [DecidableEq α] (counts : List (α × Nat)) (a : α) : Nat :=
  ((counts.find? fun c => c.1 = a).map (·.2)).getD 0

section Counts
variable {α : Type} [DecidableEq α] {counts : List (α × Nat)} {l l' : List α} {a b : α} {n : Nat}
  {c : α × Nat}

theorem counted_cons_self : counted ((a, n) :: counts) a = n := by
  simp [counted]

theorem counted_cons_of_ne (other : c.1 ≠ a) : counted (c :: counts) a = counted counts a := by
  simp [counted, other]

theorem counted_filter_ne (other : b ≠ a) :
    counted (counts.filter fun c => c.1 ≠ a) b = counted counts b := by
  have same : (fun c : α × Nat => decide (decide (c.1 ≠ a) = true ∧ decide (c.1 = b) = true)) =
      fun c => decide (c.1 = b) := by
    funext c
    by_cases h : c.1 = b
    · simp [h, other]
    · simp [h]
  rw [counted, counted, List.find?_filter, same]

/-- The count of a value is how often it occurs. -/
theorem counted_tally (l : List α) (a : α) : counted (tally l) a = l.count a := by
  induction l with
  | nil => rfl
  | cons b l ih =>
      obtain rfl | other := eq_or_ne b a
      · rw [tally, counted_cons_self, List.count_cons_self, ← ih, Nat.add_comm]
        rfl
      · rw [tally, counted_cons_of_ne other, counted_filter_ne other.symm, ih,
          List.count_cons_of_ne other]

theorem mem_tally : c ∈ tally l ↔ c.1 ∈ l ∧ c.2 = l.count c.1 := by
  obtain ⟨a, n⟩ := c
  induction l with
  | nil => simp [tally]
  | cons b l ih =>
      have here := counted_tally l b
      rw [counted] at here
      rw [tally, List.mem_cons, List.mem_filter, ih, here]
      obtain rfl | other := eq_or_ne a b
      · simp [Nat.add_comm]
      · simp [other, other.symm]

theorem pos_of_mem_tally (h : c ∈ tally l) : 0 < c.2 := by
  obtain ⟨member, count⟩ := mem_tally.1 h
  rw [count]
  exact List.count_pos_iff.2 member

theorem tally_perm (h : l.Perm l') : (tally l).Perm (tally l') := by
  have distinct (l : List α) : (tally l).Nodup := (nodup_tally l).of_map _
  refine (List.perm_ext_iff_of_nodup (distinct l) (distinct l')).2 fun c => ?_
  rw [mem_tally, mem_tally, h.mem_iff, h.count_eq]

theorem counted_tally_append (l l' : List α) (a : α) :
    counted (tally (l ++ l')) a = counted (tally l) a + counted (tally l') a := by
  rw [counted_tally, counted_tally, counted_tally, List.count_append]

theorem sum_filter_ne (distinct : (counts.map (·.1)).Nodup) (a : α) :
    ((counts.filter fun c => c.1 ≠ a).map (·.2)).sum + counted counts a
      = (counts.map (·.2)).sum := by
  induction counts with
  | nil => rfl
  | cons c counts ih =>
      obtain ⟨new, others⟩ := List.nodup_cons.1 distinct
      obtain rfl | other := eq_or_ne c.1 a
      · have kept : (counts.filter fun d => d.1 ≠ c.1) = counts :=
          List.filter_eq_self.2 fun d member => decide_eq_true fun same =>
            new (List.mem_map.2 ⟨d, member, same⟩)
        rw [List.filter_cons_of_neg (by simp), kept, List.map_cons, List.sum_cons, Nat.add_comm]
        exact congrArg (· + _) counted_cons_self
      · rw [List.filter_cons_of_pos (by simpa using other), counted_cons_of_ne other,
          List.map_cons, List.map_cons, List.sum_cons, List.sum_cons, Nat.add_assoc, ih others]

/-- Every occurrence is counted once. -/
theorem sum_tally (l : List α) : ((tally l).map (·.2)).sum = l.length := by
  induction l with
  | nil => rfl
  | cons a l ih =>
      have rest := sum_filter_ne (nodup_tally l) a
      rw [ih, counted] at rest
      rw [tally, List.map_cons, List.sum_cons, List.length_cons, ← rest]
      omega

end Counts

section Sizes

theorem exists_addSizes_iff (sum : Float) (sizes : List (Option Number)) :
    (∃ total, addSizes sum sizes = .ok total) ↔ ∀ size ∈ sizes, ∃ x, sizeToAdd size = .ok x := by
  induction sizes generalizing sum with
  | nil => exact iff_of_true ⟨sum, rfl⟩ nofun
  | cons size sizes ih =>
      simp only [addSizes, bind_eq_ok_iff, List.forall_mem_cons]
      constructor
      · rintro ⟨total, x, first, rest⟩
        exact ⟨⟨x, first⟩, (ih _).1 ⟨total, rest⟩⟩
      · rintro ⟨⟨x, first⟩, others⟩
        obtain ⟨total, rest⟩ := (ih (sum + x)).2 others
        exact ⟨total, x, first, rest⟩

theorem addSizes_real (xs : List Float) (sum : Float) :
    addSizes sum (xs.map fun x => some (.real x)) = .ok (xs.foldl (· + ·) sum) := by
  induction xs generalizing sum with
  | nil => rfl
  | cons x xs ih => exact ih (sum + x)

end Sizes

/-- The size of a verdict, if it is a float. -/
def Verdict.megabytes (v : Verdict) : Float :=
  match v.size with
  | some (.real x) => x
  | _ => 0

theorem Verdict.megabytes_nonneg {tables : Tables} (sizes : tables.sizes.NonNegative)
    (evidence : Option (List String)) (d : Declaration) :
    0 ≤ (Verdict.of tables evidence d).megabytes := by
  cases evidence with
  | none => exact Rule.size_nonneg _
  | some resolved => exact sizes.estimate _

def megabytesOf (verdicts : List Verdict) : Float :=
  (verdicts.map (·.megabytes)).foldl (· + ·) 0

namespace Summary
variable {verdicts verdicts' : List Verdict} {s s' t : Summary}

/-- The counts of a summary one against another. -/
structure Consistent (verdicts : List Verdict) (evidence : Option (List String)) (s : Summary) :
    Prop where
  total : s.total = verdicts.length
  categories : (s.categories.map (·.2)).sum = s.total
  flagged : s.flagged = counted s.categories .likelyUnused
  byEvidence : evidence.isSome → (s.recommendations.map (·.2)).sum = s.total
  byName : evidence = none → s.recommendations = []
  positive : (∀ c ∈ s.categories, 0 < c.2) ∧ ∀ c ∈ s.recommendations, 0 < c.2

/-- The same counts, in whatever order they are listed. -/
structure SameCounts (s s' : Summary) : Prop where
  total : s.total = s'.total
  flagged : s.flagged = s'.flagged
  categories : s.categories.Perm s'.categories
  recommendations : s.recommendations.Perm s'.recommendations

/-- Counts that are those of two summaries together. -/
structure AddsUp (s s' t : Summary) : Prop where
  total : t.total = s.total + s'.total
  flagged : t.flagged = s.flagged + s'.flagged
  categories : ∀ c, counted t.categories c = counted s.categories c + counted s'.categories c
  recommendations : ∀ r,
    counted t.recommendations r = counted s.recommendations r + counted s'.recommendations r

/-- Sizes of a summary: sums over all verdicts and over the flagged ones, which are no more than
that. As the sizes are floats, the sums are what the exact sums are rounded to at each step. -/
structure Sized (verdicts : List Verdict) (s : Summary) : Prop where
  sizes : ∀ v ∈ verdicts, v.size = some (.real v.megabytes)
  size : s.size = roundTo places (megabytesOf verdicts)
  savings : s.savings = roundTo places (megabytesOf (verdicts.filter (·.flagged)))
  atMost : AtMost (megabytesOf (verdicts.filter (·.flagged))) (megabytesOf verdicts)
  rounded : ∀ value : Verdict → ℚ, (∀ v ∈ verdicts, exactValue? v.megabytes = some (value v)) →
    Reaches verdicts.length (verdicts.map value).sum (megabytesOf verdicts) ∧
      Reaches (verdicts.filter (·.flagged)).length ((verdicts.filter (·.flagged)).map value).sum
        (megabytesOf (verdicts.filter (·.flagged))) ∧
      ((verdicts.filter (·.flagged)).map value).sum ≤ (verdicts.map value).sum

section Lists

theorem exists_ofVerdicts_iff :
    (∃ s, ofVerdicts verdicts = .ok s) ↔ ∀ v ∈ verdicts, ∃ x, sizeToAdd v.size = .ok x := by
  have all := exists_addSizes_iff 0 (verdicts.map (·.size))
  have flagged := exists_addSizes_iff 0 ((verdicts.filter (·.flagged)).map (·.size))
  rw [List.forall_mem_map] at all flagged
  rw [← all]
  constructor
  · rintro ⟨s, summed⟩
    obtain ⟨size, added, -⟩ := bind_eq_ok_iff.1 summed
    exact ⟨size, added⟩
  · rintro ⟨size, added⟩
    obtain ⟨savings, saved⟩ := flagged.2 fun v member =>
      all.1 ⟨size, added⟩ v (List.mem_filter.1 member).1
    exact ⟨_, bind_eq_ok_iff.2 ⟨size, added, bind_eq_ok_iff.2 ⟨savings, saved, rfl⟩⟩⟩

/-- What a summary counts. -/
theorem counts_of (h : ofVerdicts verdicts = .ok s) :
    s.total = verdicts.length ∧ s.flagged = (verdicts.filter (·.flagged)).length ∧
      s.categories = tally (verdicts.map (·.category)) ∧
      s.recommendations = tally (verdicts.filterMap (·.recommendation)) := by
  obtain ⟨size, -, h⟩ := bind_eq_ok_iff.1 h
  obtain ⟨savings, -, h⟩ := bind_eq_ok_iff.1 h
  cases h
  exact ⟨rfl, rfl, rfl, rfl⟩

theorem sameCounts_of_perm (same : verdicts.Perm verdicts') (h : ofVerdicts verdicts = .ok s)
    (h' : ofVerdicts verdicts' = .ok s') : SameCounts s s' := by
  obtain ⟨total, flagged, categories, recommendations⟩ := counts_of h
  obtain ⟨total', flagged', categories', recommendations'⟩ := counts_of h'
  constructor
  · rw [total, total', same.length_eq]
  · rw [flagged, flagged', (same.filter _).length_eq]
  · rw [categories, categories']
    exact tally_perm (same.map _)
  · rw [recommendations, recommendations']
    exact tally_perm (same.filterMap _)

theorem addsUp_append (h : ofVerdicts verdicts = .ok s) (h' : ofVerdicts verdicts' = .ok s')
    (both : ofVerdicts (verdicts ++ verdicts') = .ok t) : AddsUp s s' t := by
  obtain ⟨total, flagged, categories, recommendations⟩ := counts_of h
  obtain ⟨total', flagged', categories', recommendations'⟩ := counts_of h'
  obtain ⟨total'', flagged'', categories'', recommendations''⟩ := counts_of both
  constructor
  · rw [total'', List.length_append, total, total']
  · rw [flagged'', List.filter_append, List.length_append, flagged, flagged']
  · intro c
    rw [categories'', List.map_append, counted_tally_append, categories, categories']
  · intro r
    rw [recommendations'', List.filterMap_append, counted_tally_append, recommendations,
      recommendations']

end Lists

section Audits
variable {tables : Tables} {evidence : Option (List String)} {lines : List String} {v : Verdict}

/-- Sizes have no part in what is flagged. -/
theorem flagged_iff_of_mem_audit (h : v ∈ audit tables evidence lines) :
    v.flagged = true ↔ v.category = .likelyUnused := by
  obtain ⟨d, -, rfl⟩ := List.mem_map.1 h
  cases evidence with
  | none => exact (Verdict.sound_byName d tables.families).flagged_iff
  | some resolved =>
      exact (Verdict.sound_byEvidence ⟨tables.families, []⟩ d nofun resolved).flagged_iff

theorem size_of_mem_audit (h : v ∈ audit tables evidence lines) :
    v.size = some (.real v.megabytes) := by
  obtain ⟨d, -, rfl⟩ := List.mem_map.1 h
  obtain ⟨-, size, -, -, real⟩ := Verdict.figures_of tables evidence d
  rw [Verdict.megabytes, real]

theorem exists_ofVerdicts_audit (tables : Tables) (evidence : Option (List String))
    (lines : List String) : ∃ s, ofVerdicts (audit tables evidence lines) = .ok s := by
  refine exists_ofVerdicts_iff.2 fun v member => ⟨v.megabytes, ?_⟩
  rw [size_of_mem_audit member]
  rfl

theorem length_recommendations (tables : Tables) (resolved lines : List String) :
    ((audit tables (some resolved) lines).filterMap (·.recommendation)).length
      = (audit tables (some resolved) lines).length := by
  rw [List.length_filterMap_eq_countP, List.countP_eq_length]
  intro v member
  obtain ⟨d, -, rfl⟩ := List.mem_map.1 member
  rfl

theorem consistent_of_audit (h : ofVerdicts (audit tables evidence lines) = .ok s) :
    Consistent (audit tables evidence lines) evidence s := by
  obtain ⟨total, flagged, categories, recommendations⟩ := counts_of h
  constructor
  · exact total
  · rw [categories, sum_tally, List.length_map, total]
  · rw [flagged, categories, counted_tally, List.count, List.countP_map,
      ← List.countP_eq_length_filter]
    refine List.countP_congr fun v member => ?_
    rw [flagged_iff_of_mem_audit member]
    exact beq_iff_eq.symm
  · intro given
    obtain ⟨resolved, rfl⟩ := Option.isSome_iff_exists.1 given
    rw [recommendations, sum_tally, length_recommendations, total]
  · rintro rfl
    have nothing : (audit tables none lines).filterMap (·.recommendation) = [] := by
      refine List.filterMap_eq_nil_iff.2 fun v member => ?_
      obtain ⟨d, -, rfl⟩ := List.mem_map.1 member
      rfl
    rw [recommendations, nothing]
    rfl
  · rw [categories, recommendations]
    exact ⟨fun c => pos_of_mem_tally, fun c => pos_of_mem_tally⟩

/-- Sizes of verdicts that are not negative add up to what the exact sum is rounded to. -/
theorem reaches_megabytesOf {value : Verdict → ℚ}
    (each : ∀ v ∈ verdicts, Amount v.megabytes (value v)) :
    Reaches verdicts.length (verdicts.map value).sum (megabytesOf verdicts) := by
  have zero : (0 : Float).toModel.unpack = .zero .positive := rfl
  have start : Reaches 0 0 0 := .inl ⟨0, ⟨exactValue?_of_zero zero, le_rfl⟩, by simp, by simp⟩
  have amounts : List.Forall₂ Amount (verdicts.map (·.megabytes)) (verdicts.map value) := by
    rw [List.forall₂_map_left_iff, List.forall₂_map_right_iff, List.forall₂_same]
    exact each
  have run := start.foldl le_rfl amounts
  rwa [List.length_map, zero_add, zero_add] at run

theorem sized_of_audit (sizes : tables.sizes.NonNegative)
    (h : ofVerdicts (audit tables evidence lines) = .ok s) :
    Sized (audit tables evidence lines) s := by
  have each : ∀ v ∈ audit tables evidence lines, 0 ≤ v.megabytes := by
    rw [audit, List.forall_mem_map]
    exact fun d _ => Verdict.megabytes_nonneg sizes evidence d
  generalize hverdicts : audit tables evidence lines = verdicts at h each
  have of_flagged : ∀ v ∈ verdicts.filter (·.flagged), v ∈ verdicts :=
    fun v member => (List.mem_filter.1 member).1
  have real : ∀ v ∈ verdicts, v.size = some (.real v.megabytes) := by
    subst hverdicts
    exact fun v => size_of_mem_audit
  have added (verdicts : List Verdict) (real : ∀ v ∈ verdicts, v.size = some (.real v.megabytes)) :
      addSizes 0 (verdicts.map (·.size)) = .ok (megabytesOf verdicts) := by
    rw [List.map_congr_left real, megabytesOf, ← addSizes_real, List.map_map]
    rfl
  rw [ofVerdicts, added _ real, added _ fun v member => real v (of_flagged v member)] at h
  cases h
  refine ⟨real, rfl, rfl, ?_, fun value values => ?_⟩
  · have zero : IsSize 0 := isSize_of_zero_le (by decide)
    exact AtMost.foldl _ (fun v member => isSize_of_zero_le (each v member))
      ⟨zero, zero, fun t number => ⟨t, number, le_rfl⟩⟩
  · have amount : ∀ v ∈ verdicts, Amount v.megabytes (value v) := fun v member =>
      ⟨values v member, nonneg_of_zero_le (each v member) (values v member)⟩
    refine ⟨reaches_megabytesOf amount, reaches_megabytesOf fun v member =>
      amount v (of_flagged v member), (List.filter_sublist.map value).sum_le_sum ?_⟩
    exact List.forall_mem_map.2 fun v member => (amount v member).nonneg

end Audits

/-- The totals of an audit agree with its verdicts and with each other. Counts stay the same when
verdicts are put in another order, and those of two lists add up. Sizes add up over all verdicts,
and what could be saved over the flagged ones, which is never more. -/
theorem ofVerdicts_totals :
    (∀ tables evidence lines, ∃ s, ofVerdicts (audit tables evidence lines) = .ok s ∧
        Consistent (audit tables evidence lines) evidence s) ∧
      (∀ verdicts verdicts' s, verdicts.Perm verdicts' → ofVerdicts verdicts = .ok s →
        ∃ s', ofVerdicts verdicts' = .ok s' ∧ SameCounts s s') ∧
      (∀ verdicts verdicts' s s', ofVerdicts verdicts = .ok s → ofVerdicts verdicts' = .ok s' →
        ∃ t, ofVerdicts (verdicts ++ verdicts') = .ok t ∧ AddsUp s s' t) ∧
      (∀ settings sizes, SizeTable.ofSettings settings = .ok sizes → sizes.NonNegative) ∧
      ∀ tables evidence lines s, tables.sizes.NonNegative →
        ofVerdicts (audit tables evidence lines) = .ok s →
          Sized (audit tables evidence lines) s := by
  refine ⟨fun tables evidence lines => ?_, fun verdicts verdicts' s same summed => ?_,
    fun verdicts verdicts' s s' summed summed' => ?_,
    fun settings sizes => SizeTable.nonNegative_ofSettings,
    fun tables evidence lines s => sized_of_audit⟩
  · obtain ⟨s, summed⟩ := exists_ofVerdicts_audit tables evidence lines
    exact ⟨s, summed, consistent_of_audit summed⟩
  · have each := exists_ofVerdicts_iff.1 ⟨s, summed⟩
    obtain ⟨s', summed'⟩ := exists_ofVerdicts_iff.2 fun v member =>
      each v (same.mem_iff.2 member)
    exact ⟨s', summed', sameCounts_of_perm same summed summed'⟩
  · obtain ⟨t, both⟩ := exists_ofVerdicts_iff.2 (List.forall_mem_append.2
      ⟨exists_ofVerdicts_iff.1 ⟨s, summed⟩, exists_ofVerdicts_iff.1 ⟨s', summed'⟩⟩)
    exact ⟨t, both, addsUp_append summed summed' both⟩

/-- Two declarations of three are flagged; the others are read back to front behind them. -/
theorem ofVerdicts_totals_of_reverse :
    let verdicts := audit Tables.builtIn (some ["g:b:1"])
      ["api('g:guava:1')", "api('g:b:1')", "testImplementation 'g:c:1'"]
    ∃ s s' t value, ofVerdicts verdicts = .ok s ∧ ofVerdicts verdicts.reverse = .ok s' ∧
      ofVerdicts (verdicts ++ verdicts.reverse) = .ok t ∧ (s.total, s.flagged) = (3, 2) ∧
      SameCounts s s' ∧ AddsUp s s' t ∧ Sized verdicts s ∧
      (∀ v ∈ verdicts, exactValue? v.megabytes = some (value v)) ∧
      ((verdicts.filter (·.flagged)).map value).sum ≤ (verdicts.map value).sum := by
  intro verdicts
  obtain ⟨audited, reordered, joined, settled, sized⟩ := ofVerdicts_totals
  obtain ⟨s, summed, consistent⟩ := audited Tables.builtIn (some ["g:b:1"])
    ["api('g:guava:1')", "api('g:b:1')", "testImplementation 'g:c:1'"]
  obtain ⟨s', summed', same⟩ := reordered verdicts _ s verdicts.reverse_perm.symm summed
  obtain ⟨t, both, added⟩ := joined _ _ s s' summed summed'
  have nonneg : Tables.builtIn.sizes.NonNegative := settled [] _ rfl
  have sized := sized _ _ _ s nonneg summed
  have finite : ∀ v ∈ verdicts, (exactValue? v.megabytes).isSome = true := by decide +kernel
  have values : ∀ v ∈ verdicts,
      exactValue? v.megabytes = some ((exactValue? v.megabytes).getD 0) := by
    intro v member
    obtain ⟨x, found⟩ := Option.isSome_iff_exists.1 (finite v member)
    rw [found]
    rfl
  have counts : (verdicts.length, (verdicts.filter (·.flagged)).length) = (3, 2) := by
    decide +kernel
  refine ⟨s, s', t, _, summed, summed', both, ?_, same, added, sized, values,
    (sized.rounded _ values).2.2⟩
  rw [← counts, consistent.total, (counts_of summed).2.1]

end Summary
end DependencyAudit
