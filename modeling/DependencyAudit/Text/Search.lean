/-!
Words at the front of a text and anywhere in it.
-/

namespace DependencyAudit.Text

/-- What follows a word that the text starts with. -/
def after? : List Char → List Char → Option (List Char)
  | [], s => some s
  | _ :: _, [] => none
  | w :: ws, c :: s => if w = c then after? ws s else none

theorem after?_eq_some_iff {w s r : List Char} : after? w s = some r ↔ s = w ++ r := by
  induction w generalizing s with
  | nil => simp [after?, eq_comm]
  | cons a w ih =>
    cases s with
    | nil => simp [after?]
    | cons c s =>
      by_cases h : a = c
      · simp [after?, h, ih]
      · simp [after?, h, Ne.symm h]

def occursIn (w : List Char) : List Char → Bool
  | [] => w.isEmpty
  | c :: s => (after? w (c :: s)).isSome || occursIn w s

theorem occursIn_iff {w s : List Char} : occursIn w s = true ↔ w <:+: s := by
  induction s with
  | nil => simp [occursIn]
  | cons c s ih =>
    have front : (after? w (c :: s)).isSome = true ↔ w <+: c :: s := by
      rw [Option.isSome_iff_exists]
      constructor
      · rintro ⟨r, h⟩
        exact ⟨r, (after?_eq_some_iff.1 h).symm⟩
      · rintro ⟨r, h⟩
        exact ⟨r, after?_eq_some_iff.2 h.symm⟩
    rw [occursIn, Bool.or_eq_true, front, ih, List.infix_cons_iff]

theorem prefix_of_not_mem {w x y : List Char} {c : Char} (hc : c ∉ w) (h : w <+: x ++ c :: y) :
    w <+: x := by
  obtain short | ⟨t, rfl⟩ := List.prefix_or_prefix_of_prefix h (List.prefix_append x (c :: y))
  · exact short
  · rw [List.prefix_append_right_inj] at h
    cases t with
    | nil => simp
    | cons d t =>
        obtain ⟨rfl, _⟩ := List.cons_prefix_cons.1 h
        exact absurd (List.mem_append_right x List.mem_cons_self) hc

/-- A word that does not hold some character stands on one side of it. -/
theorem infix_or_infix {w x y : List Char} {c : Char} (hc : c ∉ w) (h : w <:+: x ++ c :: y) :
    w <:+: x ∨ w <:+: y := by
  induction x with
  | nil =>
      obtain front | behind := List.infix_cons_iff.1 h
      · exact .inl (prefix_of_not_mem (x := []) hc front).isInfix
      · exact .inr behind
  | cons d x ih =>
      obtain front | behind := List.infix_cons_iff.1 h
      · exact .inl (prefix_of_not_mem (x := d :: x) hc front).isInfix
      · obtain left | right := ih behind
        · exact .inl (List.infix_cons left)
        · exact .inr right

theorem infix_of_append {w x y : List Char} (nonempty : w ≠ []) (apart : ∀ c ∈ y, c ∉ w)
    (h : w <:+: x ++ y) : w <:+: x := by
  cases y with
  | nil => rwa [List.append_nil] at h
  | cons c y =>
      obtain left | right := infix_or_infix (apart c List.mem_cons_self) h
      · exact left
      · obtain ⟨d, w, rfl⟩ := List.exists_cons_of_ne_nil nonempty
        have inside := List.mem_cons_of_mem c (right.subset List.mem_cons_self)
        exact absurd List.mem_cons_self (apart d inside)

end DependencyAudit.Text
