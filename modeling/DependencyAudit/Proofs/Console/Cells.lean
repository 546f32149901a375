import DependencyAudit.Proofs.Console.Line

/-!
Cells of plain output. A tab is no part of a colour or cursor sequence, so what plain output
leaves of cells that are joined by tabs is what it leaves of each cell, joined by tabs. Cells
without a tab are found again between the tabs.
-/
namespace DependencyAudit.Console
open Text

section Sequences
variable {n : Nat} (s t : List Char)

theorem takeWhile_append_tab :
    (s ++ '\t' :: t).takeWhile isSequenceChar = s.takeWhile isSequenceChar := by
  induction s with
  | nil => rfl
  | cons c s ih => simp only [List.cons_append, List.takeWhile_cons, ih]

theorem dropWhile_append_tab :
    (s ++ '\t' :: t).dropWhile isSequenceChar = s.dropWhile isSequenceChar ++ '\t' :: t := by
  rw [List.dropWhile_append]
  split
  case isTrue all =>
    rw [List.isEmpty_iff.1 all]
    rfl
  case isFalse => rfl

theorem drop_takeWhile :
    s.drop (s.takeWhile isSequenceChar).length = s.dropWhile isSequenceChar := by
  calc s.drop (s.takeWhile isSequenceChar).length
      = (s.takeWhile isSequenceChar ++ s.dropWhile isSequenceChar).drop
          (s.takeWhile isSequenceChar).length := by rw [List.takeWhile_append_dropWhile]
    _ = s.dropWhile isSequenceChar := List.drop_left

/-- What stands behind a tab makes no sequence of what stands before it. -/
theorem sequenceLength?_append_tab :
    sequenceLength? (s ++ '\t' :: t) = sequenceLength? s := by
  cases s with
  | nil => rfl
  | cons c s =>
      by_cases bracket : c = '['
      · subst bracket
        have behind := drop_takeWhile (s ++ '\t' :: t)
        rw [takeWhile_append_tab, dropWhile_append_tab] at behind
        simp only [sequenceLength?, List.cons_append, takeWhile_append_tab, behind, drop_takeWhile]
        cases s.dropWhile isSequenceChar with
        | nil | cons d rest => rfl
      · simp [sequenceLength?, bracket]

theorem le_length_of_sequenceLength? {s : List Char} (h : sequenceLength? s = some n) :
    n ≤ s.length := by
  revert h
  fun_cases sequenceLength? s with
  | case1 r inside c rest behind letter =>
      rintro ⟨⟩
      have longer := congrArg List.length behind
      rw [List.length_drop, List.length_cons] at longer
      rw [List.length_cons]
      omega
  | case2 | case3 | case4 => exact nofun

variable {s}

theorem dropSequencesFrom_append_tab {skip : Nat} (within : skip ≤ s.length) :
    dropSequencesFrom skip (s ++ '\t' :: t)
      = dropSequencesFrom skip s ++ '\t' :: dropSequencesFrom 0 t := by
  induction s generalizing skip with
  | nil =>
      obtain rfl := Nat.le_zero.1 within
      rfl
  | cons c s ih =>
      cases skip with
      | succ skip => exact ih (Nat.le_of_succ_le_succ within)
      | zero =>
          rw [List.cons_append, dropSequencesFrom, dropSequencesFrom, sequenceLength?_append_tab]
          split
          case h_1 n read =>
            split at read
            case isTrue => exact ih (le_length_of_sequenceLength? read)
            case isFalse => cases read
          case h_2 => rw [ih (Nat.zero_le _), List.cons_append]

end Sequences

section Cells
variable {cells : List (List Char)}

theorem dropSequencesFrom_intercalate (cells : List (List Char)) :
    dropSequencesFrom 0 (['\t'].intercalate cells)
      = ['\t'].intercalate (cells.map (dropSequencesFrom 0)) := by
  induction cells with
  | nil => rfl
  | cons cell rest ih =>
      cases rest with
      | nil => simp
      | cons next rest =>
          rw [List.intercalate_cons_cons, List.append_assoc, List.singleton_append,
            dropSequencesFrom_append_tab _ (Nat.zero_le _), ih]
          simp

theorem splitAtEach_intercalate {sep : Char} (nonempty : cells ≠ [])
    (h : ∀ cell ∈ cells, sep ∉ cell) : splitAtEach sep ([sep].intercalate cells) = cells := by
  rw [splitAtEach_eq_splitOn]
  exact List.splitOn_intercalate sep h nonempty

end Cells

theorem toList_echoed (s : String) : (echoed s).toList = dropSequencesFrom 0 s.toList :=
  String.toList_ofList

theorem not_mem_echoed {c : Char} {s : String} (h : c ∉ s.toList) : c ∉ (echoed s).toList := by
  rw [toList_echoed]
  exact fun inside => h ((dropSequencesFrom_sublist 0 s.toList).subset inside)

theorem echoed_eq_self_iff {s : String} : echoed s = s ↔ ¬ HasSequence s.toList := by
  constructor
  · intro same
    exact (alike_echoed_iff s).1 (by rw [same]; exact .refl s)
  · intro sequenceless
    rw [echoed, dropSequencesFrom_eq_self sequenceless, String.ofList_toList]

theorem echoed_of_no_escape {s : String} (h : '\x1b' ∉ s.toList) : echoed s = s :=
  echoed_eq_self_iff.2 fun ⟨_, behind, _⟩ => h (behind.subset List.mem_cons_self)

section Rows
variable {cells : List String}

/-- A row of cells as it is printed. -/
def row (cells : List String) : List Char :=
  ['\t'].intercalate (cells.map fun cell => (echoed cell).toList)

theorem toList_echoCells (cells : List String) :
    (echoCells cells).toList = row cells ++ ['\n'] := by
  have joined : ("\t".intercalate cells).toList = ['\t'].intercalate (cells.map String.toList) := by
    rw [String.toList_intercalate]
    rfl
  rw [echoCells, echo, String.toList_append, toList_echoed, joined, dropSequencesFrom_intercalate,
    List.map_map, row]
  simp only [toList_echoed]
  rfl

theorem splitAtEach_row (nonempty : cells ≠ []) (h : ∀ cell ∈ cells, '\t' ∉ cell.toList) :
    (splitAtEach '\t' (row cells)).map String.ofList = cells.map echoed := by
  rw [row, splitAtEach_intercalate (by simpa using nonempty), List.map_map]
  · apply List.map_congr_left
    intro cell _
    exact String.ofList_toList
  · rw [List.forall_mem_map]
    exact fun cell member => not_mem_echoed (h cell member)

theorem not_mem_row {c : Char} (tab : c ≠ '\t') (h : ∀ cell ∈ cells, c ∉ cell.toList) :
    c ∉ row cells := by
  intro inside
  obtain same | ⟨piece, member, inside⟩ := mem_intercalate inside
  · exact tab same
  · obtain ⟨cell, hcell, rfl⟩ := List.mem_map.1 member
    exact not_mem_echoed (h cell hcell) inside

end Rows
end DependencyAudit.Console
