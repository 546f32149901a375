import DependencyAudit.Proofs.Declaration.Grammar

/-!
Texts of coordinates. A text is cut at its first two colons: what stands before them is
the group and the artifact, and all that follows is the version, further colons
included. No declared group or artifact has a colon in it, so a declared coordinate is
read back from its text.
-/
namespace DependencyAudit

/-- What stands before the first separator, and what stands behind it. -/
def Text.cut? (sep : Char) : List Char → Option (List Char × List Char)
  | [] => none
  | c :: s => if c = sep then some ([], s) else (cut? sep s).map fun cut => (c :: cut.1, cut.2)

theorem Text.cut?_append {sep : Char} {front rest : List Char} (h : sep ∉ front) :
    cut? sep (front ++ sep :: rest) = some (front, rest) := by
  induction front with
  | nil => simp [cut?]
  | cons c front ih =>
      obtain ⟨first, h⟩ := not_or.1 (mt List.mem_cons.2 h)
      rw [List.cons_append, cut?, if_neg (Ne.symm first), ih h]
      rfl

namespace Coordinate

def ofText? (s : List Char) : Option Coordinate := do
  let (group, s) ← Text.cut? ':' s
  let (artifact, version) ← Text.cut? ':' s
  return ⟨String.ofList group, String.ofList artifact, String.ofList version⟩

theorem toList_text (c : Coordinate) :
    c.text.toList = c.group.toList ++ ':' :: (c.artifact.toList ++ ':' :: c.version.toList) := by
  simp [text]

/-- Colons in the version alone leave the other two parts as they are. -/
def Separable (c : Coordinate) : Prop := ':' ∉ c.group.toList ∧ ':' ∉ c.artifact.toList

variable {c d : Coordinate}

theorem Separable.ofText?_text (h : c.Separable) : ofText? c.text.toList = some c := by
  simp [ofText?, toList_text, Text.cut?_append h.1, Text.cut?_append h.2]

theorem Separable.eq_of_text_eq (hc : c.Separable) (hd : d.Separable) (same : c.text = d.text) :
    c = d := by
  have read := hc.ofText?_text
  rw [same, hd.ofText?_text] at read
  exact (Option.some.inj read).symm

end Coordinate

theorem IsName.colon_not_mem {s : String} (h : IsName s) : ':' ∉ s.toList :=
  fun mem => (h.2 ':' mem).2.2.1 rfl

/-- A declared coordinate has no white space in it. -/
theorem Literal.visible {c : Coordinate} {literal : List Char} (h : Literal c literal) :
    ∀ d ∈ c.text.toList, Text.isBlank d = false := by
  obtain ⟨_, group, artifact, version⟩ := h
  intro d hd
  simp only [Coordinate.toList_text, List.mem_append, List.mem_cons] at hd
  obtain hd | rfl | hd | rfl | hd := hd
  · exact (group.2 d hd).2.2.2
  · decide
  · exact (artifact.2 d hd).2.2.2
  · decide
  · exact (version.2 d hd).2.2

section Declared
variable {number : Int} {line : List Char} {found : Kind × Declaration}

theorem exists_literal_of_mem_onLine (h : found ∈ Declaration.onLine number line) :
    ∃ literal, Literal found.2.coordinate literal ∧ literal <:+: line := by
  obtain ⟨_, _, inside, ⟨_, _, hliteral⟩⟩ := exists_written_of_mem_onLine h
  exact ⟨_, hliteral, (List.suffix_append _ _).isInfix.trans inside⟩

theorem separable_of_mem_onLine (h : found ∈ Declaration.onLine number line) :
    found.2.coordinate.Separable := by
  obtain ⟨_, ⟨_, group, artifact, _⟩, _⟩ := exists_literal_of_mem_onLine h
  exact ⟨group.colon_not_mem, artifact.colon_not_mem⟩

end Declared
end DependencyAudit
