import DependencyAudit.Proofs.Text.Blank
import DependencyAudit.Text.Lowercase

/-!
Lower case of a text piece by piece. Whether a character beyond ASCII changes may
hang on its neighbours, so the lower case of a piece is known only where it is ASCII:
there it stands in the lower case of the whole. A text that no mapping touches stays.
-/
namespace DependencyAudit.Text

theorem exists_lowerFrom_append (before a s : List Char) :
    ∃ x, lowerFrom before (a ++ s) = x ++ lowerFrom (a.reverse ++ before) s := by
  induction a generalizing before with
  | nil => exact ⟨[], rfl⟩
  | cons c a ih =>
      obtain ⟨x, hx⟩ := ih (c :: before)
      refine ⟨lowerBetween before c (a ++ s) ++ x, ?_⟩
      rw [List.cons_append, lowerFrom, hx, List.reverse_cons, List.append_assoc, List.append_assoc,
        List.singleton_append]

theorem lowerBetween_eq {c : Char} (sigma : c ≠ 'Σ') (dotted : c ≠ 'İ')
    (before after : List Char) : lowerBetween before c after = [lowerSimple c] := by
  simp [lowerBetween, sigma, dotted]

theorem lowerBetween_ascii {c : Char} (h : c.toNat < 0x80) (before after : List Char) :
    lowerBetween before c after = [c.toLower] := by
  have sigma : c ≠ 'Σ' := by
    intro same
    subst same
    revert h
    decide
  have dotted : c ≠ 'İ' := by
    intro same
    subst same
    revert h
    decide
  rw [lowerBetween_eq sigma dotted, lowerSimple, if_pos h]

theorem lowerFrom_ascii {w : List Char} (h : ∀ c ∈ w, c.toNat < 0x80) (before s : List Char) :
    lowerFrom before (w ++ s) = w.map Char.toLower ++ lowerFrom (w.reverse ++ before) s := by
  induction w generalizing before with
  | nil => rfl
  | cons c w ih =>
      rw [List.cons_append, lowerFrom, lowerBetween_ascii (h c List.mem_cons_self),
        ih (fun d hd => h d (List.mem_cons_of_mem c hd)), List.reverse_cons, List.append_assoc,
        List.singleton_append, List.map_cons, List.cons_append]
      rfl

/-- A character that lower case leaves as it is, whatever stands around it. -/
def IsLower (c : Char) : Prop := c ≠ 'Σ' ∧ c ≠ 'İ' ∧ lowerSimple c = c

instance : DecidablePred IsLower := fun _ => inferInstanceAs (Decidable (_ ∧ _))

theorem lowerFrom_eq_self {s : List Char} (h : ∀ c ∈ s, IsLower c) (before : List Char) :
    lowerFrom before s = s := by
  induction s generalizing before with
  | nil => rfl
  | cons c s ih =>
      obtain ⟨sigma, dotted, fixed⟩ := h c List.mem_cons_self
      rw [lowerFrom, lowerBetween_eq sigma dotted, fixed,
        ih fun d hd => h d (List.mem_cons_of_mem c hd)]
      rfl

theorem isLower_of_isBlank {c : Char} (h : isBlank c = true) : IsLower c :=
  of_decide_eq_true (forall_of_isBlank (p := fun c => decide (IsLower c)) (by decide +kernel) h)

theorem map_toLower_infix_lower {w s : List Char} (ascii : ∀ c ∈ w, c.toNat < 0x80)
    (h : w <:+: s) : w.map Char.toLower <:+: lower s := by
  obtain ⟨a, r, rfl⟩ := h
  obtain ⟨x, hx⟩ := exists_lowerFrom_append [] a (w ++ r)
  rw [lower, List.append_assoc, hx, lowerFrom_ascii ascii, ← List.append_assoc]
  exact ⟨x, _, rfl⟩

end DependencyAudit.Text
