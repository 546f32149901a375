import DependencyAudit.Proofs.Declaration.Coordinate
import DependencyAudit.Proofs.Declaration.Place
import Mathlib.Data.List.Pairwise

/-!
Where declarations come from. A script is read piece by piece: what is appended to it is
read as if it stood alone, further down. Every declaration is tied to the line whose
number it bears, and its coordinate stands in quotes on that line.
-/
namespace DependencyAudit.Declaration

/-- Where a declaration stands when there are more lines before it. -/
def movedDown (n : Nat) (d : Declaration) : Declaration := d.moved (d.line + n)

/-- What ties a declaration to the line that it was read from. -/
structure ReadFrom (lines : List String) (d : Declaration) : Prop where
  within : 1 ≤ d.line ∧ d.line ≤ lines.length
  line : ∃ line, lines[(d.line - 1).toNat]? = some line ∧
    d.source = String.ofList (Text.trim line.toList) ∧ d.kind = Kind.ofLine line.toList ∧
    ∃ q, (q = '\'' ∨ q = '"') ∧ q :: d.coordinate.text.toList ++ [q] <:+: line.toList
  coordinate : Coordinate.ofText? d.coordinate.text.toList = some d.coordinate

section Append

theorem map_movedDown_ofLine (first : Int) (n : Nat) (line : String) :
    (ofLine first line).map (movedDown n) = ofLine (first + n) line := by
  rw [ofLine_eq_map_moved first (first + n)]
  apply List.map_congr_left
  intro d hd
  rw [movedDown, line_of_mem_ofLine hd]

theorem ofLinesFrom_add (first : Int) (n : Nat) (lines : List String) :
    ofLinesFrom (first + n) lines = (ofLinesFrom first lines).map (movedDown n) := by
  induction lines generalizing first with
  | nil => rfl
  | cons line rest ih =>
      have next : first + n + 1 = first + 1 + n := by omega
      rw [ofLinesFrom_cons, ofLinesFrom_cons, List.map_append, map_movedDown_ofLine, ← ih, next]

theorem ofLinesFrom_append (first : Int) (xs ys : List String) :
    ofLinesFrom first (xs ++ ys) = ofLinesFrom first xs ++ ofLinesFrom (first + xs.length) ys := by
  induction xs generalizing first with
  | nil => simp [ofLinesFrom, onLines]
  | cons line rest ih =>
      have next : first + ((line :: rest).length : Int) = first + 1 + rest.length := by
        rw [List.length_cons]
        omega
      rw [List.cons_append, ofLinesFrom_cons, ofLinesFrom_cons, ih, List.append_assoc, next]

theorem ofLines_append (xs ys : List String) :
    ofLines (xs ++ ys) = ofLines xs ++ (ofLines ys).map (movedDown xs.length) := by
  change ofLinesFrom 1 (xs ++ ys) = ofLinesFrom 1 xs ++ (ofLinesFrom 1 ys).map _
  rw [ofLinesFrom_append, ofLinesFrom_add]

end Append

section Order

theorem le_line_of_mem_ofLinesFrom {first : Int} {lines : List String} {d : Declaration}
    (h : d ∈ ofLinesFrom first lines) : first ≤ d.line := by
  obtain ⟨i, line, _, member⟩ := mem_ofLinesFrom.1 h
  have place := line_of_mem_ofLine member
  omega

theorem pairwise_ofLinesFrom (first : Int) (lines : List String) :
    (ofLinesFrom first lines).Pairwise fun d e => d.line ≤ e.line := by
  induction lines generalizing first with
  | nil => exact .nil
  | cons line rest ih =>
      rw [ofLinesFrom_cons, List.pairwise_append]
      refine ⟨?_, ih (first + 1), ?_⟩
      · refine List.pairwise_of_forall_mem_list fun d hd e he => Int.le_of_eq ?_
        rw [line_of_mem_ofLine hd, line_of_mem_ofLine he]
      · intro d hd e he
        have here := line_of_mem_ofLine hd
        have below := le_line_of_mem_ofLinesFrom he
        omega

end Order

section Lines
variable {lines : List String} {d : Declaration}

theorem source_of_mem_ofLine {n : Int} {line : String} (h : d ∈ ofLine n line) :
    d.source = String.ofList (Text.trim line.toList) := by
  obtain ⟨_, found, rfl⟩ := List.mem_map.1 h
  obtain ⟨_, _, found⟩ := List.mem_flatMap.1 found
  obtain ⟨_, _, rfl⟩ := List.mem_map.1 found
  rfl

theorem exists_literal (h : d ∈ ofLines lines) : ∃ literal, Literal d.coordinate literal := by
  obtain ⟨_, _, _, member⟩ := mem_ofLinesFrom.1 h
  obtain ⟨_, found, rfl⟩ := List.mem_map.1 member
  obtain ⟨literal, written, _⟩ := exists_literal_of_mem_onLine found
  exact ⟨literal, written⟩

theorem separable_of_mem_ofLines (h : d ∈ ofLines lines) : d.coordinate.Separable := by
  obtain ⟨_, ⟨_, group, artifact, _⟩⟩ := exists_literal h
  exact ⟨group.colon_not_mem, artifact.colon_not_mem⟩

theorem readFrom_of_mem_ofLines (h : d ∈ ofLines lines) : d.ReadFrom lines := by
  obtain ⟨i, line, hline, member⟩ := mem_ofLinesFrom.1 h
  have place := line_of_mem_ofLine member
  have source := source_of_mem_ofLine member
  have separable := separable_of_mem_ofLines h
  have index : (d.line - 1).toNat = i := by omega
  have below := (List.getElem?_eq_some_iff.1 hline).1
  obtain ⟨found, found_mem, rfl⟩ := List.mem_map.1 member
  obtain ⟨kind, _⟩ := exists_written_of_mem_onLine found_mem
  obtain ⟨_, ⟨hq, _, _, _⟩, inside⟩ := exists_literal_of_mem_onLine found_mem
  exact {
    within := ⟨by omega, by omega⟩
    line := ⟨line, index ▸ hline, source, kind, _, hq, inside⟩
    coordinate := separable.ofText?_text }

end Lines

/-- Reading is compositional, keeps the order of the lines, so that sorting by line changes
nothing, and ties every declaration to its line; the text of a coordinate is of one
coordinate only. -/
theorem ofLines_readFrom :
    (∀ xs ys, ofLines (xs ++ ys) = ofLines xs ++ (ofLines ys).map (movedDown xs.length)) ∧
      (∀ lines, (ofLines lines).Pairwise (fun d e => d.line ≤ e.line) ∧
        (ofLines lines).mergeSort (fun d e => d.line ≤ e.line) = ofLines lines ∧
        ∀ d ∈ ofLines lines, d.ReadFrom lines) ∧
      ∀ lines others, ∀ d ∈ ofLines lines, ∀ e ∈ ofLines others,
        d.coordinate.text = e.coordinate.text → d.coordinate = e.coordinate := by
  refine ⟨ofLines_append, fun lines => ?_, fun lines others d hd e he same => ?_⟩
  · have ordered : (ofLines lines).Pairwise fun d e => d.line ≤ e.line :=
      pairwise_ofLinesFrom 1 lines
    exact ⟨ordered, List.mergeSort_of_pairwise (by simpa using ordered),
      fun d => readFrom_of_mem_ofLines⟩
  · exact (separable_of_mem_ofLines hd).eq_of_text_eq (separable_of_mem_ofLines he) same

/-- Two declarations on one line, the second of them with a colon in its version. -/
theorem ofLines_readFrom_of_two :
    let lines := ["", "  implementation('a:b:1'); kapt(\"c:d:2:sources\")"]
    ∃ d ∈ ofLines lines, d.ReadFrom lines ∧ d.line = 2 ∧ d.coordinate.text = "c:d:2:sources" ∧
      ∀ e ∈ ofLines ("\x7d" :: lines), d.coordinate.text = e.coordinate.text →
        d.coordinate = e.coordinate := by
  intro lines
  let d : Declaration := ⟨⟨"c", "d", "2:sources"⟩, 2,
    "implementation('a:b:1'); kapt(\"c:d:2:sources\")", .annotationProcessor⟩
  have member : d ∈ ofLines lines := by decide +kernel
  exact ⟨d, member, (ofLines_readFrom.2.1 lines).2.2 d member, rfl, by decide +kernel,
    ofLines_readFrom.2.2 lines ("\x7d" :: lines) d member⟩

end DependencyAudit.Declaration
