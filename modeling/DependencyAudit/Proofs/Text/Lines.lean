import DependencyAudit.Proofs.Text.Blank
import DependencyAudit.Text.Lines
import Mathlib.Data.List.DropRight

/-!
Lines and other pieces of a text. Every character that ends a line is white space, so a text
without white space is one line. The pieces between separators give the text back. Two
texts are alike if they differ only in spaces at the ends of lines and in line feeds at
the end; all other characters stand in both equally often.
-/
namespace DependencyAudit.Text

theorem isBlank_of_isLineEnd {c : Char} (h : isLineEnd c = true) : isBlank c = true := by
  have white : ∀ n ∈ [0x0A, 0x0B, 0x0C, 0x0D, 0x1C, 0x1D, 0x1E, 0x85, 0x2028, 0x2029],
      inRanges blankRanges n = true := by decide
  exact white c.toNat (List.contains_iff_mem.1 h)

theorem isLineEnd_of_visible {c : Char} (h : isBlank c = false) : isLineEnd c = false := by
  rw [← Bool.not_eq_true]
  intro ends
  cases h.symm.trans (isBlank_of_isLineEnd ends)

theorem splitLines_cons {c : Char} {s : List Char} (h : c = '\r' → s.head? ≠ some '\n') :
    splitLines (c :: s) =
      if isLineEnd c then [] :: splitLines s else ontoFirst c (splitLines s) := by
  rw [splitLines]
  rintro s carriageReturn rfl
  exact h carriageReturn rfl

theorem splitLines_eq_singleton {s : List Char} (nonempty : s ≠ [])
    (h : ∀ c ∈ s, isLineEnd c = false) : splitLines s = [s] := by
  induction s with
  | nil => exact absurd rfl nonempty
  | cons c s ih =>
      have here := h c List.mem_cons_self
      have apart : c = '\r' → s.head? ≠ some '\n' := by
        rintro rfl
        cases here
      rw [splitLines_cons apart, if_neg (by simp [here])]
      cases s with
      | nil => rfl
      | cons d s =>
          rw [ih (List.cons_ne_nil d s) fun e he => h e (List.mem_cons_of_mem c he)]
          rfl

theorem ontoFirst_append (c : Char) {first : List (List Char)} (h : first ≠ [])
    (rest : List (List Char)) : ontoFirst c (first ++ rest) = ontoFirst c first ++ rest := by
  cases first with
  | nil => exact absurd rfl h
  | cons line lines => rfl

theorem splitLines_ne_nil {s : List Char} (h : s ≠ []) : splitLines s ≠ [] := by
  induction s using splitLines.induct with
  | case1 => exact absurd rfl h
  | case2 s ih => simp [splitLines]
  | case3 c s pair ends ih => simp [splitLines, ends]
  | case4 c s pair inside ih =>
      rw [splitLines, if_neg inside]
      · cases splitLines s <;> exact List.cons_ne_nil _ _
      · exact pair

/-- Two texts with a line feed between them: the lines of both, perhaps with an empty one
between them. A return at the end of the first makes one line end with the line feed. -/
theorem splitLines_append (s t : List Char) :
    splitLines (s ++ '\n' :: t) = splitLines s ++ splitLines t ∨
      splitLines (s ++ '\n' :: t) = splitLines s ++ [] :: splitLines t := by
  induction s using splitLines.induct with
  | case1 => exact .inr rfl
  | case2 s ih => exact ih.imp (congrArg ([] :: ·)) (congrArg ([] :: ·))
  | case3 c s pair ends ih =>
      by_cases meets : c = '\r' ∧ s = []
      · obtain ⟨rfl, rfl⟩ := meets
        exact .inl rfl
      · have own : c = '\r' → s.head? ≠ some '\n' := by
          intro carriageReturn feed
          obtain ⟨rest, rfl⟩ := List.head?_eq_some_iff.1 feed
          exact pair rest carriageReturn rfl
        have apart : c = '\r' → (s ++ '\n' :: t).head? ≠ some '\n' := by
          intro carriageReturn
          cases s with
          | nil => exact absurd ⟨carriageReturn, rfl⟩ meets
          | cons d s => exact own carriageReturn
        rw [List.cons_append, splitLines_cons apart, splitLines_cons own, if_pos ends, if_pos ends]
        exact ih.imp (congrArg ([] :: ·)) (congrArg ([] :: ·))
  | case4 c s pair inside ih =>
      have apart (s : List Char) : c = '\r' → s.head? ≠ some '\n' := by
        rintro rfl
        exact absurd rfl inside
      rw [List.cons_append, splitLines_cons (apart _), splitLines_cons (apart _), if_neg inside,
        if_neg inside]
      cases s with
      | nil => exact .inl rfl
      | cons d s =>
          have first := splitLines_ne_nil (List.cons_ne_nil d s)
          rw [← ontoFirst_append c first, ← ontoFirst_append c first]
          exact ih.imp (congrArg (ontoFirst c)) (congrArg (ontoFirst c))

theorem mem_splitLines_append {line s t : List Char} (h : line ≠ []) :
    line ∈ splitLines (s ++ '\n' :: t) ↔ line ∈ splitLines s ∨ line ∈ splitLines t := by
  obtain joined | joined := splitLines_append s t <;> simp [joined, h]

section Pieces
variable {sep : Char} {s : List Char}

theorem ontoFirst_eq (c : Char) {pieces : List (List Char)} (h : pieces ≠ []) :
    ontoFirst c pieces = pieces.modifyHead (c :: ·) := by
  cases pieces with
  | nil => exact absurd rfl h
  | cons piece rest => rfl

theorem flatten_ontoFirst (c : Char) (pieces : List (List Char)) :
    (ontoFirst c pieces).flatten = c :: pieces.flatten := by
  cases pieces with
  | nil | cons piece rest => rfl

theorem splitAtEach_eq_splitOn (sep : Char) (s : List Char) :
    splitAtEach sep s = s.splitOn sep := by
  induction s with
  | nil => rfl
  | cons c s ih =>
      rw [splitAtEach, List.splitOn_cons_eq_if_modifyHead, ih,
        ontoFirst_eq c (List.splitOn_ne_nil sep s)]

theorem splitAtEach_of_not_mem (h : sep ∉ s) : splitAtEach sep s = [s] := by
  rw [splitAtEach_eq_splitOn, List.splitOn_eq_singleton h]

theorem splitAtEach_append (sep : Char) (s t : List Char) :
    splitAtEach sep (s ++ sep :: t) = splitAtEach sep s ++ splitAtEach sep t := by
  rw [splitAtEach_eq_splitOn, splitAtEach_eq_splitOn, splitAtEach_eq_splitOn,
    List.splitOn_append_cons_self]

theorem splitAtEach_concat (sep : Char) (s : List Char) :
    splitAtEach sep (s ++ [sep]) = splitAtEach sep s ++ [[]] :=
  splitAtEach_append sep s []

/-- Lines that are each ended are found again in front of whatever follows them. -/
theorem splitAtEach_ended {lines : List (List Char)} (h : ∀ line ∈ lines, sep ∉ line)
    (rest : List Char) :
    splitAtEach sep ((lines.map (· ++ [sep])).flatten ++ rest) = lines ++ splitAtEach sep rest := by
  induction lines with
  | nil => rfl
  | cons line lines ih =>
      obtain ⟨free, others⟩ := List.forall_mem_cons.1 h
      rw [List.map_cons, List.flatten_cons, List.append_assoc, List.append_assoc,
        List.singleton_append, splitAtEach_append, splitAtEach_of_not_mem free, ih others]
      rfl

/-- A separator in a text makes at least two pieces of it. -/
theorem two_le_length_splitAtEach (h : sep ∈ s) : 2 ≤ (splitAtEach sep s).length := by
  have positive (t : List Char) : 0 < (splitAtEach sep t).length := by
    rw [splitAtEach_eq_splitOn]
    exact List.length_pos_of_ne_nil (List.splitOn_ne_nil sep t)
  obtain ⟨before, after, rfl⟩ := List.append_of_mem h
  rw [splitAtEach_append, List.length_append]
  have := positive before
  have := positive after
  omega

theorem flatten_splitAtEach (sep : Char) (s : List Char) :
    (splitAtEach sep s).flatten = s.filter (· ≠ sep) := by
  induction s with
  | nil => rfl
  | cons c s ih =>
      rw [splitAtEach, List.filter_cons]
      by_cases same : c = sep
      · simp [same, ih]
      · simp [same, ih, flatten_ontoFirst]

theorem mem_of_mem_splitAtEach {piece : List Char} {c : Char} (hp : piece ∈ splitAtEach sep s)
    (hc : c ∈ piece) : c ∈ s ∧ c ≠ sep := by
  have member : c ∈ (splitAtEach sep s).flatten := List.mem_flatten_of_mem hp hc
  rw [flatten_splitAtEach] at member
  simpa using List.mem_filter.1 member

end Pieces

section Alike
variable {c : Char}

/-- The lines of a text without the spaces behind them and without empty ones at the end. -/
def settled (s : List Char) : List (List Char) :=
  ((splitAtEach '\n' s).map (·.rdropWhile (· = ' '))).rdropWhile List.isEmpty

def Alike (s t : String) : Prop := settled s.toList = settled t.toList

instance (s t : String) : Decidable (Alike s t) :=
  inferInstanceAs (Decidable (settled s.toList = settled t.toList))

theorem Alike.refl (s : String) : Alike s s := rfl

theorem settled_concat (s : List Char) : settled (s ++ ['\n']) = settled s := by
  rw [settled, splitAtEach_concat, List.map_append]
  exact List.rdropWhile_concat_pos _ _ _ rfl

theorem alike_ended (s : String) : Alike (s ++ "\n") s := by
  rw [Alike, String.toList_append]
  exact settled_concat s.toList

theorem count_rdropWhile {p : Char → Bool} (h : p c = false) (s : List Char) :
    (s.rdropWhile p).count c = s.count c := by
  induction s using List.reverseRecOn with
  | nil => rfl
  | append_singleton s d ih =>
      rw [List.rdropWhile_concat]
      split
      case isTrue dropped =>
        have other : d ≠ c := by
          rintro rfl
          rw [h] at dropped
          cases dropped
        rw [ih, List.count_append, List.count_singleton, if_neg (by simpa using other),
          Nat.add_zero]
      case isFalse => rfl

theorem flatten_rdropWhile_isEmpty (lines : List (List Char)) :
    (lines.rdropWhile List.isEmpty).flatten = lines.flatten := by
  induction lines using List.reverseRecOn with
  | nil => rfl
  | append_singleton lines line ih =>
      rw [List.rdropWhile_concat]
      split
      case isTrue empty =>
        rw [ih, List.isEmpty_iff.1 empty]
        simp
      case isFalse => rfl

theorem count_settled (space : c ≠ ' ') (feed : c ≠ '\n') (s : List Char) :
    (settled s).flatten.count c = s.count c := by
  have line : (fun line : List Char => (line.rdropWhile (· = ' ')).count c) = List.count c :=
    funext fun line => count_rdropWhile (by simpa using space) line
  rw [settled, flatten_rdropWhile_isEmpty, List.count_flatten, List.map_map]
  change ((splitAtEach '\n' s).map fun line => (line.rdropWhile (· = ' ')).count c).sum = _
  rw [line, ← List.count_flatten, flatten_splitAtEach]
  exact List.count_filter (by simpa using feed)

theorem Alike.count_eq {s t : String} (h : Alike s t) (space : c ≠ ' ') (feed : c ≠ '\n') :
    s.toList.count c = t.toList.count c := by
  rw [← count_settled space feed s.toList, ← count_settled space feed t.toList, h]

end Alike
end DependencyAudit.Text
