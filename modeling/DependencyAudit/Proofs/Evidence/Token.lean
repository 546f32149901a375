import DependencyAudit.Evidence.Text
import DependencyAudit.Proofs.Text.Blank

/-!
What the readers of resolved coordinates read, each said as the form of the text
that it accepts. A version goes on as far as it can, except that the hyphen of an
arrow close behind it is left to the arrow.
-/
namespace DependencyAudit.Evidence

def IsName (s : List Char) : Prop :=
  s ≠ [] ∧ ∀ c ∈ s, Text.isWord c = true ∨ c = '.' ∨ c = '-'

def IsVersion (s : List Char) : Prop :=
  s ≠ [] ∧ ∀ c ∈ s, Text.isWord c = true ∨ c = '.' ∨ c = '-' ∨ c = '+'

/-- No version goes on here. -/
def EndsVersion (r : List Char) : Prop := ∀ c ∈ r.head?, isVersionPart c = false

theorem isName_iff {s : List Char} : IsName s ↔ s ≠ [] ∧ ∀ c ∈ s, isNamePart c = true := by
  simp [IsName, isNamePart, or_assoc]

theorem isVersion_iff {s : List Char} :
    IsVersion s ↔ s ≠ [] ∧ ∀ c ∈ s, isVersionPart c = true := by
  simp [IsVersion, isVersionPart, isNamePart, or_assoc]

theorem IsName.not_mem {s : List Char} (h : IsName s) {c : Char} (hc : isNamePart c = false) :
    c ∉ s := by
  intro mem
  cases hc.symm.trans ((isName_iff.1 h).2 c mem)

theorem IsVersion.not_mem {s : List Char} (h : IsVersion s) {c : Char}
    (hc : isVersionPart c = false) : c ∉ s := by
  intro mem
  cases hc.symm.trans ((isVersion_iff.1 h).2 c mem)

theorem not_isVersionPart_of_isBlank {c : Char} (h : Text.isBlank c = true) :
    isVersionPart c = false := by
  have word := Text.not_isWord_of_isBlank h
  have other : c ≠ '.' ∧ c ≠ '-' ∧ c ≠ '+' := by
    refine ⟨?_, ?_, ?_⟩
    all_goals
      intro same
      subst same
      revert h
      decide
  simp [isVersionPart, isNamePart, word, other]

theorem names?_eq_some_iff {s g a r : List Char} :
    names? s = some ((g, a), r) ↔ IsName g ∧ IsName a ∧ s = g ++ ':' :: a ++ ':' :: r := by
  simp only [names?, Option.bind_eq_bind, Option.bind_eq_some_iff, Prod.exists,
    Text.run?_eq_some_iff, Text.after?_eq_some_iff, isName_iff]
  constructor
  · intro h
    obtain ⟨_, _, ⟨ng, ig, _, rfl⟩, _, rfl, _, _, ⟨na, ia, _, rfl⟩, _, rfl, same⟩ := h
    cases same
    exact ⟨⟨ng, ig⟩, ⟨na, ia⟩, by simp⟩
  · intro h
    obtain ⟨⟨ng, ig⟩, ⟨na, ia⟩, rfl⟩ := h
    have stops : ∀ t : List Char, ∀ c ∈ (':' :: t).head?, isNamePart c = false := by
      intro t d hd
      cases hd
      decide
    exact ⟨g, ':' :: a ++ ':' :: r, ⟨ng, ig, stops _, by simp⟩, _, rfl,
      a, ':' :: r, ⟨na, ia, stops _, rfl⟩, r, rfl, rfl⟩

theorem token?_eq_some_iff {s r : List Char} {c : Coordinate} :
    token? s = some (c, r) ↔
      ∃ g a v, IsName g ∧ IsName a ∧ IsVersion v ∧ EndsVersion r ∧ c = coordinate g a v ∧
        s = g ++ ':' :: a ++ ':' :: v ++ r := by
  simp only [token?, Option.bind_eq_bind, Option.bind_eq_some_iff, Prod.exists,
    Text.run?_eq_some_iff, names?_eq_some_iff]
  constructor
  · intro h
    obtain ⟨g, a, _, ⟨hg, ha, rfl⟩, v, _, ⟨nv, iv, stops, rfl⟩, same⟩ := h
    cases same
    exact ⟨g, a, v, hg, ha, isVersion_iff.2 ⟨nv, iv⟩, stops, rfl, by simp⟩
  · intro h
    obtain ⟨g, a, v, hg, ha, hv, stops, rfl, rfl⟩ := h
    obtain ⟨nv, iv⟩ := isVersion_iff.1 hv
    exact ⟨g, a, v ++ r, ⟨hg, ha, by simp⟩, v, r, ⟨nv, iv, stops, rfl⟩, rfl⟩

/-- The run of a version takes the hyphen of a close arrow with it. -/
theorem requested?_close {v r : List Char} (h : IsVersion v) :
    requested? (v ++ '-' :: '>' :: r) = some (v, r) := by
  obtain ⟨nonempty, inside⟩ := isVersion_iff.1 h
  have run : Text.run? isVersionPart (v ++ '-' :: '>' :: r) = some (v ++ ['-'], '>' :: r) := by
    refine Text.run?_eq_some_iff.2 ⟨by simp, ?_, ?_, by simp⟩
    · simpa [or_imp, forall_and] using ⟨inside, by decide⟩
    · intro d hd
      cases hd
      rfl
  have apart : Text.after? ['-', '>'] (Text.trimLeft ('>' :: r)) = none := rfl
  have close : Text.after? ['>'] ('>' :: r) = some r := rfl
  have long : 2 ≤ (v ++ ['-']).length := by
    have := List.length_pos_iff.2 nonempty
    simp only [List.length_append, List.length_singleton]
    omega
  rw [requested?, run, Option.bind_eq_bind, Option.bind_some]
  simp only [apart, close, Option.bind_eq_bind, Option.bind_some]
  rw [if_pos ⟨List.getLast?_concat, long⟩, List.dropLast_concat]
  rfl

theorem requested?_apart {v blanks r : List Char} (h : IsVersion v) (nonempty : blanks ≠ [])
    (blank : Text.Blank blanks) :
    requested? (v ++ blanks ++ '-' :: '>' :: r) = some (v, r) := by
  obtain ⟨hv, inside⟩ := isVersion_iff.1 h
  have run : Text.run? isVersionPart (v ++ (blanks ++ '-' :: '>' :: r)) =
      some (v, blanks ++ '-' :: '>' :: r) := by
    refine Text.run?_eq_some_iff.2 ⟨hv, inside, ?_, rfl⟩
    intro d hd
    cases blanks with
    | nil => exact absurd rfl nonempty
    | cons c blanks =>
        cases hd
        exact not_isVersionPart_of_isBlank (blank _ List.mem_cons_self)
  have trimmed : Text.trimLeft (blanks ++ '-' :: '>' :: r) = '-' :: '>' :: r := by
    refine Text.trimLeft_append blank ?_
    intro d hd
    cases hd
    rfl
  have arrow : Text.after? ['-', '>'] ('-' :: '>' :: r) = some r := rfl
  rw [List.append_assoc, requested?, run, Option.bind_eq_bind, Option.bind_some]
  simp only [trimmed, arrow]
  rfl

theorem requested?_eq_some_iff {s v r : List Char} :
    requested? s = some (v, r) ↔
      IsVersion v ∧ ∃ blanks, Text.Blank blanks ∧ s = v ++ blanks ++ '-' :: '>' :: r := by
  constructor
  · intro h
    obtain ⟨⟨run, rest⟩, hrun, read⟩ := Option.bind_eq_some_iff.1 h
    obtain ⟨nonempty, inside, _, rfl⟩ := Text.run?_eq_some_iff.1 hrun
    simp only at read
    split at read
    case h_1 t arrow =>
      cases read
      obtain ⟨blanks, hblanks, split⟩ := Text.exists_trimLeft rest
      refine ⟨isVersion_iff.2 ⟨nonempty, inside⟩, blanks, hblanks, ?_⟩
      rw [split, Text.after?_eq_some_iff.1 arrow]
      simp
    case h_2 =>
      obtain ⟨t, close, read⟩ := Option.bind_eq_some_iff.1 read
      obtain ⟨⟨hyphen, long⟩, read⟩ := Option.ite_none_right_eq_some.1 read
      cases read
      obtain ⟨short, rfl⟩ := List.getLast?_eq_some_iff.1 hyphen
      have nonempty : short ≠ [] := by
        intro empty
        simp [empty] at long
      rw [List.dropLast_concat, Text.after?_eq_some_iff.1 close]
      exact ⟨isVersion_iff.2 ⟨nonempty, fun c hc => inside c (List.mem_append_left _ hc)⟩,
        [], nofun, by simp⟩
  · intro ⟨hv, blanks, hblanks, split⟩
    by_cases close : blanks = []
    · rw [split, close, List.append_nil]
      exact requested?_close hv
    · rw [split]
      exact requested?_apart hv close hblanks

/-- A conflict: a requested coordinate, an arrow and the version selected instead. -/
theorem conflict?_eq_some_iff {s r : List Char} {asked chosen : Coordinate} :
    conflict? s = some ((asked, chosen), r) ↔
      ∃ g a v w before after, IsName g ∧ IsName a ∧ IsVersion v ∧ IsVersion w ∧
        Text.Blank before ∧ Text.Blank after ∧ EndsVersion r ∧
        asked = coordinate g a v ∧ chosen = coordinate g a w ∧
        s = g ++ ':' :: a ++ ':' :: v ++ before ++ '-' :: '>' :: after ++ w ++ r := by
  simp only [conflict?, Option.bind_eq_bind, Option.bind_eq_some_iff, Prod.exists,
    Text.run?_eq_some_iff, names?_eq_some_iff, requested?_eq_some_iff]
  constructor
  · intro h
    obtain ⟨g, a, _, ⟨hg, ha, rfl⟩, v, rest, ⟨hv, before, hbefore, rfl⟩, w, _,
      ⟨nw, iw, stops, split⟩, same⟩ := h
    cases same
    obtain ⟨after, hafter, trimmed⟩ := Text.exists_trimLeft rest
    refine ⟨g, a, v, w, before, after, hg, ha, hv, isVersion_iff.2 ⟨nw, iw⟩, hbefore, hafter,
      stops, rfl, rfl, ?_⟩
    rw [trimmed, split]
    simp
  · intro h
    obtain ⟨g, a, v, w, before, after, hg, ha, hv, hw, hbefore, hafter, stops, rfl, rfl, rfl⟩ := h
    obtain ⟨nw, iw⟩ := isVersion_iff.1 hw
    have trimmed : Text.trimLeft (after ++ (w ++ r)) = w ++ r := by
      refine Text.trimLeft_append hafter fun c hc => ?_
      cases w with
      | nil => exact absurd rfl nw
      | cons d w =>
          cases hc
          rw [← Bool.not_eq_true]
          intro blank
          have part := iw c List.mem_cons_self
          rw [not_isVersionPart_of_isBlank blank] at part
          cases part
    exact ⟨g, a, v ++ before ++ '-' :: '>' :: (after ++ (w ++ r)), ⟨hg, ha, by simp⟩,
      v, after ++ (w ++ r), ⟨hv, before, hbefore, rfl⟩, w, r, ⟨nw, iw, stops, trimmed⟩, rfl⟩

theorem mem_ofText_iff {text : List Char} {name : String} :
    name ∈ ofText text ↔ ∃ line ∈ Text.splitLines text, ∃ c ∈ onLine line, c.text = name := by
  simp only [ofText, List.mem_map, List.mem_flatMap]
  constructor
  · rintro ⟨c, ⟨line, hline, member⟩, named⟩
    exact ⟨line, hline, c, member, named⟩
  · rintro ⟨line, hline, c, member, named⟩
    exact ⟨c, ⟨line, hline, member⟩, named⟩

end DependencyAudit.Evidence
