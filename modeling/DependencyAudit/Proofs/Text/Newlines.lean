import DependencyAudit.Proofs.Text.Lines

/-!
Newlines, and the separators that end a line as well. Files are read with one newline for all
three, which leaves the lines as they are. Behind so many ends of lines, of either sort, stands the
line of that number; lines are what newlines alone make of a text exactly if no separator is in it.
-/
namespace DependencyAudit.Text

def isNewline (c : Char) : Bool := c == '\n' || c == '\r'

/-- Characters that end a line and are no newline. -/
def isSeparator (c : Char) : Bool := isLineEnd c && !isNewline c

/-- Line feeds, carriage returns and pairs of both, each pair counted once. -/
def newlines : List Char → Nat
  | [] => 0
  | '\r' :: '\n' :: s => newlines s + 1
  | c :: s => if isNewline c then newlines s + 1 else newlines s

def separators (s : List Char) : Nat := s.countP isSeparator

/-- Lines that newlines alone end. -/
def newlineLines : List Char → List (List Char)
  | [] => []
  | '\r' :: '\n' :: s => [] :: newlineLines s
  | c :: s => if isNewline c then [] :: newlineLines s else ontoFirst c (newlineLines s)

section Ends
variable {c : Char} {s line ending rest front : List Char}

theorem isLineEnd_of_isNewline (h : isNewline c = true) : isLineEnd c = true := by
  rw [isNewline, Bool.or_eq_true, beq_iff_eq, beq_iff_eq] at h
  obtain rfl | rfl := h <;> decide

theorem isNewline_eq_false (h : isLineEnd c = false) : isNewline c = false := by
  rw [← Bool.not_eq_true]
  intro newline
  cases h.symm.trans (isLineEnd_of_isNewline newline)

theorem isSeparator_eq_false (h : isLineEnd c = false) : isSeparator c = false := by
  rw [isSeparator, h, Bool.false_and]

theorem newlines_cons (h : c = '\r' → s.head? ≠ some '\n') :
    newlines (c :: s) = if isNewline c then newlines s + 1 else newlines s := by
  rw [newlines]
  intro s carriageReturn feed
  subst feed
  exact h carriageReturn rfl

/-- A character inside a line is no carriage return, whatever follows. -/
theorem apart_of_inside (h : isLineEnd c = false) : c = '\r' → s.head? ≠ some '\n' := by
  intro carriageReturn
  subst carriageReturn
  cases h

theorem newlines_append_of_inside (inside : ∀ c ∈ line, isLineEnd c = false) (s : List Char) :
    newlines (line ++ s) = newlines s := by
  induction line with
  | nil => rfl
  | cons c line ih =>
      obtain ⟨here, others⟩ := List.forall_mem_cons.1 inside
      rw [List.cons_append, newlines_cons (apart_of_inside here), isNewline_eq_false here, ih others]
      rfl

theorem separators_of_inside (inside : ∀ c ∈ line, isLineEnd c = false) : separators line = 0 :=
  List.countP_eq_zero.2 fun c hc => by simp [isSeparator_eq_false (inside c hc)]

theorem separators_eq_zero_iff : separators s = 0 ↔ ∀ c ∈ s, isSeparator c = false := by
  simp only [separators, List.countP_eq_zero, Bool.not_eq_true]

/-- What ends a line in front of the rest of a text. -/
inductive Ending : List Char → List Char → Prop
  | pair (rest : List Char) : Ending ['\r', '\n'] rest
  | single {c : Char} {rest : List Char} (ends : isLineEnd c = true)
      (apart : c = '\r' → rest.head? ≠ some '\n') : Ending [c] rest

theorem Ending.isLineEnd (h : Ending ending rest) :
    ∀ c, ending.getLast? = some c → isLineEnd c = true := by
  intro c hc
  cases h with
  | pair => cases hc; decide
  | single ends => cases hc; exact ends

/-- Whatever is read of the rest, an end of a line counts once. -/
theorem Ending.counted (h : Ending ending rest) (read : front <+: rest) :
    newlines (ending ++ front) + separators (ending ++ front) =
      newlines front + separators front + 1 := by
  cases h with
  | pair =>
      have signs : isSeparator '\r' = false ∧ isSeparator '\n' = false := by decide
      have newline : newlines ('\r' :: '\n' :: front) = newlines front + 1 := rfl
      simp only [List.cons_append, List.nil_append, newline, separators, List.countP_cons, signs]
      simp only [Bool.false_eq_true, if_false]
      omega
  | @single c _ ends apart =>
      have apart : c = '\r' → front.head? ≠ some '\n' := by
        intro carriageReturn feed
        obtain ⟨front, rfl⟩ := List.head?_eq_some_iff.1 feed
        obtain ⟨behind, rfl⟩ := read
        exact apart carriageReturn rfl
      rw [List.singleton_append, newlines_cons apart, separators, separators, List.countP_cons,
        isSeparator, ends]
      cases isNewline c with
      | true => simp; omega
      | false => simp; omega

theorem splitLines_append_of_inside (inside : ∀ c ∈ line, isLineEnd c = false)
    (h : Ending ending rest) : splitLines (line ++ ending ++ rest) = line :: splitLines rest := by
  induction line with
  | nil =>
      cases h with
      | pair => rfl
      | single ends apart =>
          rw [List.nil_append, List.singleton_append, splitLines_cons apart, if_pos ends]
  | cons c line ih =>
      obtain ⟨here, others⟩ := List.forall_mem_cons.1 inside
      rw [List.cons_append, List.cons_append, splitLines_cons (apart_of_inside here), ih others,
        if_neg (by simp [here])]
      rfl

/-- A text is one line, or its first line is ended. -/
theorem line_or_ended (s : List Char) :
    (∀ c ∈ s, isLineEnd c = false) ∨ ∃ line ending rest, s = line ++ ending ++ rest ∧
      (∀ c ∈ line, isLineEnd c = false) ∧ Ending ending rest := by
  induction s with
  | nil => exact .inl nofun
  | cons c s ih =>
      cases here : isLineEnd c with
      | false =>
          refine ih.imp (fun inside => List.forall_mem_cons.2 ⟨here, inside⟩) ?_
          intro ⟨line, ending, rest, split, inside, ends⟩
          refine ⟨c :: line, ending, rest, ?_, List.forall_mem_cons.2 ⟨here, inside⟩, ends⟩
          rw [split]
          rfl
      | true =>
          right
          by_cases both : c = '\r' ∧ s.head? = some '\n'
          · obtain ⟨rest, rfl⟩ := List.head?_eq_some_iff.1 both.2
            exact ⟨[], ['\r', '\n'], rest, by rw [both.1]; rfl, nofun, .pair rest⟩
          · exact ⟨[], [c], s, rfl, nofun, .single here (not_and.1 both)⟩

end Ends

section Lines
variable {s : List Char}

/-- Newlines may be told apart or not: the lines of a text are the same. -/
theorem splitLines_unifyNewlines (s : List Char) : splitLines (unifyNewlines s) = splitLines s := by
  have feed (s : List Char) : splitLines ('\n' :: s) = [] :: splitLines s := by
    have apart : '\n' = '\r' → s.head? ≠ some '\n' := fun same => absurd same (by decide)
    rw [splitLines_cons apart, if_pos (by decide)]
  induction s using unifyNewlines.induct with
  | case1 => rfl
  | case2 s ih => rw [unifyNewlines, feed, ih, splitLines]
  | case3 s single ih =>
      have apart : s.head? ≠ some '\n' := by
        intro first
        obtain ⟨rest, rfl⟩ := List.head?_eq_some_iff.1 first
        exact single rest rfl
      rw [unifyNewlines, feed, ih, splitLines_cons fun _ => apart, if_pos (by decide)]
      exact single
  | case4 c s _ other ih =>
      have apart (t : List Char) : c = '\r' → t.head? ≠ some '\n' := fun carriageReturn =>
        absurd carriageReturn other
      rw [unifyNewlines, splitLines_cons (apart _), splitLines_cons (apart _), ih]
      · assumption
      · exact other

theorem flatten_splitLines (s : List Char) :
    (splitLines s).flatten = s.filter fun c => !isLineEnd c := by
  induction s using splitLines.induct with
  | case1 => rfl
  | case2 s ih =>
      have signs : isLineEnd '\r' = true ∧ isLineEnd '\n' = true := by decide
      simp [splitLines, ih, signs]
  | case3 c s pair ends ih => simp [splitLines, ends, ih]
  | case4 c s pair inside ih =>
      rw [splitLines, if_neg inside, flatten_ontoFirst, ih]
      · simp [inside]
      · exact pair

theorem flatten_newlineLines (s : List Char) :
    (newlineLines s).flatten = s.filter fun c => !isNewline c := by
  induction s using newlineLines.induct with
  | case1 => rfl
  | case2 s ih =>
      have signs : isNewline '\r' = true ∧ isNewline '\n' = true := by decide
      simp [newlineLines, ih, signs]
  | case3 c s pair ends ih => simp [newlineLines, ends, ih]
  | case4 c s pair inside ih =>
      rw [newlineLines, if_neg inside, flatten_ontoFirst, ih]
      · simp [inside]
      · exact pair

theorem splitLines_eq_newlineLines (h : ∀ c ∈ s, isSeparator c = false) :
    splitLines s = newlineLines s := by
  induction s using newlineLines.induct with
  | case1 => rfl
  | case2 s ih =>
      have rest : ∀ c ∈ s, isSeparator c = false := fun c hc =>
        h c (List.mem_cons_of_mem _ (List.mem_cons_of_mem _ hc))
      rw [splitLines, newlineLines, ih rest]
  | case3 c s pair newline ih =>
      obtain ⟨-, rest⟩ := List.forall_mem_cons.1 h
      rw [splitLines, newlineLines, if_pos newline, if_pos (isLineEnd_of_isNewline newline), ih rest]
      · exact pair
      · exact pair
  | case4 c s pair other ih =>
      obtain ⟨here, rest⟩ := List.forall_mem_cons.1 h
      have inside : isLineEnd c = false := by simpa [isSeparator, other] using here
      rw [splitLines, newlineLines, if_neg other, if_neg (by simp [inside]), ih rest]
      · exact pair
      · exact pair

/-- Lines are ended by newlines alone exactly if nothing else in the text ends a line. -/
theorem splitLines_eq_newlineLines_iff :
    splitLines s = newlineLines s ↔ ∀ c ∈ s, isSeparator c = false := by
  refine ⟨fun same c hc => ?_, splitLines_eq_newlineLines⟩
  have flat := congrArg List.flatten same
  rw [flatten_splitLines, flatten_newlineLines] at flat
  rw [isSeparator, Bool.and_eq_false_iff, Bool.not_eq_false']
  cases newline : isNewline c with
  | true => exact .inr rfl
  | false =>
      have member : c ∈ s.filter fun c => !isNewline c := List.mem_filter.2 ⟨hc, by simp [newline]⟩
      rw [← flat] at member
      exact .inl (by simpa using (List.mem_filter.1 member).2)

end Lines
end DependencyAudit.Text
