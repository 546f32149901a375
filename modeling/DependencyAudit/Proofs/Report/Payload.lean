import DependencyAudit.Proofs.Json.RoundTrip
import DependencyAudit.Proofs.Results
import DependencyAudit.Report.Payload

/-!
Reports as documents. JSON has a form for whatever a report holds: counts are kept per value,
so that no table of a report gives a key twice.
-/
namespace DependencyAudit
open Json

section Tally
variable {α : Type} [DecidableEq α]

theorem nodup_tally (l : List α) : ((tally l).map (·.1)).Nodup := by
  induction l with
  | nil => exact List.nodup_nil
  | cons a l ih =>
      have others : (((tally l).filter fun c => c.1 ≠ a).map (·.1)).Nodup :=
        ih.sublist (List.filter_sublist.map _)
      rw [tally, List.map_cons, List.nodup_cons]
      refine ⟨fun again => ?_, others⟩
      obtain ⟨c, hc, same⟩ := List.mem_map.1 again
      exact absurd same (of_decide_eq_true (List.mem_filter.1 hc).2)

end Tally

section Fit
variable {room : Nat}

theorem fits_number (n : Option Number) : Fits room (.ofOption Number.toTree n) := by
  match n with
  | none => exact .null
  | some (.int n) => exact .int n
  | some (.real x) => exact .float x

theorem fits_text {α : Type} (name : α → String) (a : Option α) :
    Fits room (.ofOption (fun a => .text (name a)) a) := by
  cases a with
  | none => exact .null
  | some a => exact .text _

theorem fits_verdict (v : Verdict) : Fits (room + 1) v.toTree := by
  refine .table (by simp [Verdict.entries, Declaration.entries, Fields.keys]) fun f hf => ?_
  simp only [Verdict.entries, Declaration.entries, List.cons_append, List.nil_append,
    List.mem_cons, List.not_mem_nil, or_false] at hf
  rcases hf with rfl | rfl | rfl | rfl | rfl | rfl | rfl | rfl | rfl | rfl | rfl | rfl | rfl
  all_goals first
    | exact .text _ | exact .int _ | exact .bool _ | exact fits_number _ | exact fits_text _ _

theorem fits_edit (e : Edit) : Fits (room + 1) e.toTree := by
  refine .table (by simp [Fields.keys]) fun f hf => ?_
  simp only [List.mem_cons, List.not_mem_nil, or_false] at hf
  rcases hf with rfl | rfl | rfl | rfl
  · exact .int _
  · exact .text _
  · exact .text _
  · exact fits_number _

theorem fits_counts {α : Type} [DecidableEq α] {name : α → String}
    (named : Function.Injective name) (l : List α) :
    Fits (room + 1) (countsTree name (tally l)) := by
  refine .table ?_ fun f hf => ?_
  · have keys : Fields.keys ((tally l).map fun c => (name c.1, Tree.nat c.2))
        = ((tally l).map (·.1)).map name := by
      simp [Fields.keys, Function.comp_def]
    rw [keys]
    exact (nodup_tally l).map named
  · obtain ⟨c, _, rfl⟩ := List.mem_map.1 hf
    exact .int _

theorem Category.name_injective : Function.Injective Category.name := fun c d same =>
  Option.some.inj (by rw [← ofName?_name, same, ofName?_name])

theorem Recommendation.name_injective : Function.Injective Recommendation.name := fun r s same =>
  Option.some.inj (by rw [← ofName?_name, same, ofName?_name])

theorem fits_summary {verdicts : List Verdict} {summary : Summary}
    (h : Summary.ofVerdicts verdicts = .ok summary) : Fits (room + 2) summary.toTree := by
  obtain ⟨size, _, h⟩ := bind_eq_ok_iff.1 h
  obtain ⟨savings, _, h⟩ := bind_eq_ok_iff.1 h
  cases h
  refine .table (by simp [Fields.keys]) fun f hf => ?_
  simp only [List.mem_cons, List.not_mem_nil, or_false] at hf
  rcases hf with rfl | rfl | rfl | rfl | rfl | rfl
  · exact .int _
  · exact .int _
  · exact fits_counts Category.name_injective _
  · exact fits_counts Recommendation.name_injective _
  · exact .float _
  · exact .float _

/-- A report gives each key once, and none of them is the key of the patch. -/
theorem fits_report {r : Report} {entries : Fields} (room : Nat) (h : r.entries = .ok entries) :
    (Fields.keys entries).Nodup ∧ "patch" ∉ Fields.keys entries ∧
      ∀ f ∈ entries, Fits (room + 2) f.2 := by
  obtain ⟨summary, totals, h⟩ := bind_eq_ok_iff.1 h
  cases h
  refine ⟨by simp [Fields.keys], by simp [Fields.keys], fun f hf => ?_⟩
  simp only [List.mem_cons, List.not_mem_nil, or_false] at hf
  rcases hf with rfl | rfl | rfl | rfl | rfl | rfl
  · exact .text _
  · exact .text _
  · exact fits_text id _
  · exact fits_summary totals
  · exact .list (List.forall_mem_map.2 fun v _ => fits_verdict v)
  · exact .list (List.forall_mem_map.2 fun e _ => fits_edit e)

end Fit
end DependencyAudit
