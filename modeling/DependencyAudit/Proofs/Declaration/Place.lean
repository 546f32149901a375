import DependencyAudit.Proofs.Report.Removal
import DependencyAudit.Verdict.Classify

/-!
Places of declarations. A line is read without regard to its number or its
neighbours, so a declaration moves with its line and a verdict with its
declaration; reading what remains of a script and moving what was read agree.
-/
namespace DependencyAudit

namespace Declaration

/-- The same declaration on another line. -/
def moved (n : Int) (d : Declaration) : Declaration := { d with line := n }

/-- Where a declaration stands when lines before it are gone. -/
def movedUp (removed : List Int) (d : Declaration) : Declaration :=
  d.moved (d.line - removedBefore removed d.line)

def ofLine (n : Int) (line : String) : List Declaration := (onLine n line.toList).map (·.2)

def ofLinesFrom (first : Int) (lines : List String) : List Declaration :=
  (onLines first lines).flatMap fun found => found.map (·.2)

theorem ofLinesFrom_cons (first : Int) (line : String) (rest : List String) :
    ofLinesFrom first (line :: rest) = ofLine first line ++ ofLinesFrom (first + 1) rest := rfl

theorem ofLine_eq_map_moved (n m : Int) (line : String) :
    ofLine m line = (ofLine n line).map (moved m) := by
  simp only [ofLine, onLine, List.map_flatMap, List.map_map]
  rfl

theorem line_of_mem_ofLine {n : Int} {line : String} {d : Declaration} (h : d ∈ ofLine n line) :
    d.line = n := by
  rw [ofLine_eq_map_moved n n] at h
  obtain ⟨_, _, rfl⟩ := List.mem_map.1 h
  rfl

theorem mem_ofLinesFrom {first : Int} {lines : List String} {d : Declaration} :
    d ∈ ofLinesFrom first lines ↔
      ∃ (i : Nat) (line : String), lines[i]? = some line ∧ d ∈ ofLine (first + i) line := by
  induction lines generalizing first with
  | nil => simp [ofLinesFrom, onLines]
  | cons line rest ih =>
      have next (i : Nat) : first + 1 + i = first + ((i + 1 : Nat) : Int) := by omega
      rw [ofLinesFrom_cons, List.mem_append, ih]
      constructor
      · rintro (here | ⟨i, other, found, member⟩)
        · exact ⟨0, line, rfl, by simpa using here⟩
        · exact ⟨i + 1, other, found, next i ▸ member⟩
      · rintro ⟨i, other, found, member⟩
        cases i with
        | zero =>
            cases Option.some.inj found
            exact .inl (by simpa using member)
        | succ i => exact .inr ⟨i, other, found, next i ▸ member⟩

theorem one_le_line {lines : List String} {d : Declaration} (h : d ∈ ofLines lines) :
    1 ≤ d.line := by
  obtain ⟨i, line, _, member⟩ := mem_ofLinesFrom.1 h
  have place := line_of_mem_ofLine member
  omega

section Removed
variable {removed : List Int}

theorem filter_ofLine (removed : List Int) (n : Int) (line : String) :
    (ofLine n line).filter (fun d => !removed.contains d.line) =
      if removed.contains n then [] else ofLine n line := by
  have here : ∀ d ∈ ofLine n line, removed.contains d.line = removed.contains n :=
    fun d hd => by rw [line_of_mem_ofLine hd]
  split
  case isTrue gone =>
    rw [List.filter_eq_nil_iff]
    intro d hd
    simp only [here d hd, gone, Bool.not_true, Bool.false_eq_true, not_false_eq_true]
  case isFalse stays =>
    rw [List.filter_eq_self]
    intro d hd
    simp only [here d hd, stays, Bool.not_false]

theorem map_movedUp_ofLine (removed : List Int) (n : Int) (line : String) :
    (ofLine n line).map (movedUp removed) = ofLine (n - removedBefore removed n) line := by
  rw [ofLine_eq_map_moved n (n - removedBefore removed n)]
  apply List.map_congr_left
  intro d hd
  rw [movedUp, line_of_mem_ofLine hd]

theorem ofLinesFrom_remainingFrom (nodup : removed.Nodup) (first : Int) (lines : List String) :
    ofLinesFrom (first - removedBefore removed first) (remainingFrom removed first lines) =
      ((ofLinesFrom first lines).filter fun d => !removed.contains d.line).map
        (movedUp removed) := by
  induction lines generalizing first with
  | nil => rfl
  | cons line rest ih =>
      have next := removedBefore_succ nodup first
      have rest := ih (first + 1)
      rw [ofLinesFrom_cons, List.filter_append, List.map_append, ← rest, filter_ofLine,
        remainingFrom]
      split
      case isTrue gone =>
        rw [if_pos (List.contains_iff_mem.1 gone)] at next
        have place : first + 1 - removedBefore removed (first + 1) =
            first - removedBefore removed first := by omega
        rw [place]
        rfl
      case isFalse stays =>
        rw [if_neg (mt List.contains_iff_mem.2 stays)] at next
        have place : first + 1 - removedBefore removed (first + 1) =
            first - removedBefore removed first + 1 := by omega
        rw [map_movedUp_ofLine, place]
        rfl

/-- What is declared after a removal was declared before, further down. -/
theorem ofLines_remaining (nodup : removed.Nodup) (positive : ∀ n ∈ removed, 1 ≤ n)
    (lines : List String) :
    ofLines (remaining removed lines) =
      ((ofLines lines).filter fun d => !removed.contains d.line).map (movedUp removed) := by
  have whole := ofLinesFrom_remainingFrom nodup 1 lines
  rw [removedBefore_eq_zero positive] at whole
  exact whole

end Removed
end Declaration

namespace Verdict
variable (tables : Tables) (evidence : Option (List String))

def moved (n : Int) (v : Verdict) : Verdict := { v with declaration := v.declaration.moved n }

def movedUp (removed : List Int) (v : Verdict) : Verdict :=
  v.moved (v.line - removedBefore removed v.line)

theorem of_moved (n : Int) (d : Declaration) :
    Verdict.of tables evidence (d.moved n) = (Verdict.of tables evidence d).moved n := by
  cases evidence with
  | none => rfl
  | some resolved => rfl

theorem declaration_of (d : Declaration) : (Verdict.of tables evidence d).declaration = d := by
  cases evidence with
  | none => rfl
  | some resolved => rfl

theorem line_of (d : Declaration) : (Verdict.of tables evidence d).line = d.line :=
  congrArg Declaration.line (declaration_of tables evidence d)

theorem of_movedUp (removed : List Int) (d : Declaration) :
    Verdict.of tables evidence (d.movedUp removed) =
      (Verdict.of tables evidence d).movedUp removed := by
  rw [Declaration.movedUp, of_moved, movedUp, line_of]

end Verdict
end DependencyAudit
