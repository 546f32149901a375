import DependencyAudit.Proofs.Evidence.Listing
import DependencyAudit.Proofs.Verdict.Dependence

/-!
Evidence by whole lines. What is read from a text hangs on the set of its lines alone, so texts
that are put together give what they give apart, and what was read gives itself again when it is
listed line by line.
-/
namespace DependencyAudit.Evidence
variable {c : Coordinate} {s t : List Char} {name : String} {names : List String}

/-- An empty line resolves nothing. -/
theorem ne_nil_of_mem_onLine {line : List Char} (h : c ∈ onLine line) : line ≠ [] := by
  rintro rfl
  cases h

theorem mem_ofText_append (s t : List Char) (name : String) :
    name ∈ ofText (s ++ '\n' :: t) ↔ name ∈ ofText s ∨ name ∈ ofText t := by
  simp only [mem_ofText_iff]
  rw [← exists_or]
  refine exists_congr fun line => ?_
  rw [← or_and_right]
  refine and_congr_left fun ⟨c, member, _⟩ => ?_
  exact Text.mem_splitLines_append (ne_nil_of_mem_onLine member)

/-- Lines may be added, repeated and put in another order without losing anything. -/
theorem ofText_mono (h : ∀ line ∈ Text.splitLines s, line ≠ [] → line ∈ Text.splitLines t) :
    ofText s ⊆ ofText t := by
  intro name read
  obtain ⟨line, hline, c, member, named⟩ := mem_ofText_iff.1 read
  exact mem_ofText_iff.2
    ⟨line, h line hline (ne_nil_of_mem_onLine member), c, member, named⟩

/-- Names one to a line. -/
def listed (names : List String) : List Char := List.intercalate ['\n'] (names.map String.toList)

theorem Plain.mem_ofText_text (h : Plain c) : name ∈ ofText c.text.toList ↔ name = c.text := by
  simp [mem_ofText_iff, h.splitLines_text, h.onLine_text, eq_comm]

theorem mem_ofText_listed (plain : ∀ name ∈ names, ∃ c, Plain c ∧ c.text = name) :
    name ∈ ofText (listed names) ↔ name ∈ names := by
  induction names with
  | nil => simp [listed, ofText, Text.splitLines]
  | cons first names ih =>
      obtain ⟨⟨c, hc, rfl⟩, rest⟩ := List.forall_mem_cons.1 plain
      cases names with
      | nil => simpa [listed] using hc.mem_ofText_text
      | cons second names =>
          have split : listed (c.text :: second :: names) =
              c.text.toList ++ '\n' :: listed (second :: names) := by
            simp [listed, List.intercalate]
          rw [split, mem_ofText_append, hc.mem_ofText_text, ih rest]
          exact List.mem_cons.symm

/-- What was read, listed line by line, is read again; two texts with a line feed between them
give what each of them gives; and a text with all the lines of another, empty ones apart,
resolves all that the other resolves, so that it flags nothing that was not flagged. -/
theorem ofText_closed (s t : List Char) :
    (∀ names : List String, (∀ name, name ∈ names ↔ name ∈ ofText s) →
      ∀ name, name ∈ ofText (listed names) ↔ name ∈ ofText s) ∧
    (∀ name, name ∈ ofText (s ++ '\n' :: t) ↔ name ∈ ofText s ∨ name ∈ ofText t) ∧
    ((∀ line ∈ Text.splitLines s, line ≠ [] → line ∈ Text.splitLines t) →
      ofText s ⊆ ofText t ∧ ∀ (tables : Tables) (d : Declaration),
        (Verdict.of tables (some (ofText t)) d).flagged = true →
          (Verdict.of tables (some (ofText s)) d).flagged = true) := by
  refine ⟨?listed, mem_ofText_append s t, ?lines⟩
  case listed =>
    intro names same name
    have plain : ∀ name ∈ names, ∃ c, Plain c ∧ c.text = name :=
      fun name mem => exists_plain_of_mem_ofText ((same name).1 mem)
    rw [mem_ofText_listed plain, same]
  case lines =>
    intro within
    exact ⟨ofText_mono within, fun tables d => Verdict.flagged_antitone (ofText_mono within)⟩

/-- A conflict between an empty line and a return, and the same line among others. -/
theorem ofText_closed_of_conflict :
    let s := "\nx:y:3 -> 4+b\r".toList
    let t := "debug\nx:y:3 -> 4+b\nz:w:1-".toList
    (∀ name, name ∈ ["x:y:4+b", "x:y:3", "x:y:4+b"] ↔ name ∈ ofText s) ∧
      (∀ name, name ∈ ofText (listed ["x:y:4+b", "x:y:3", "x:y:4+b"]) ↔ name ∈ ofText s) ∧
      (∀ line ∈ Text.splitLines s, line ≠ [] → line ∈ Text.splitLines t) ∧ ofText s ⊆ ofText t := by
  intro s t
  have read : ofText s = ["x:y:3", "x:y:4+b"] := by decide +kernel
  have same : ∀ name, name ∈ ["x:y:4+b", "x:y:3", "x:y:4+b"] ↔ name ∈ ofText s := by
    intro name
    rw [read]
    grind
  have within : ∀ line ∈ Text.splitLines s, line ≠ [] → line ∈ Text.splitLines t := by
    decide +kernel
  have closed := ofText_closed s t
  exact ⟨same, closed.1 _ same, within, (closed.2.2 within).1⟩

end DependencyAudit.Evidence
