import DependencyAudit.Proofs.Evidence.Token
import DependencyAudit.Proofs.Text.Scan
import DependencyAudit.Verdict.Classify

/-!
Evidence from the tree that a build tool prints. A line of the tree holds what is
drawn in front, a requested coordinate, perhaps an arrow with the version selected
instead, and a remark. From a text of such lines, and of lines without a colon,
exactly the requested and the selected coordinates are read.
-/
namespace DependencyAudit.Evidence

/-- An arrow behind a requested version, and the version selected instead. -/
structure Selection where
  before : List Char
  after : List Char
  version : List Char
  before_ne_nil : before ≠ []
  before_blank : Text.Blank before
  after_blank : Text.Blank after
  version_word : IsVersion version

def Selection.text (s : Selection) : List Char := s.before ++ '-' :: '>' :: s.after ++ s.version

structure TreeLine where
  drawing : List Char
  group : List Char
  artifact : List Char
  version : List Char
  selection : Option Selection
  remark : List Char
  drawing_drawn : ∀ c ∈ drawing, c = ' ' ∨ c = '|' ∨ c = '+' ∨ c = '-' ∨ c = '\\'
  drawing_ends : drawing = [] ∨ drawing.getLast? = some ' '
  group_word : IsName group
  artifact_word : IsName artifact
  version_word : IsVersion version
  remark_starts : remark = [] ∨ remark.head? = some ' '
  remark_colon : ':' ∉ remark
  remark_arrow : ¬ ['-', '>'] <:+: remark

namespace TreeLine
variable (n : TreeLine)

/-- What follows the requested coordinate. -/
def tail : List Char := (n.selection.elim [] Selection.text) ++ n.remark

def text : List Char :=
  n.drawing ++ (n.group ++ ':' :: n.artifact ++ ':' :: n.version ++ n.tail)

def requested : Coordinate := coordinate n.group n.artifact n.version

def selected : Option Coordinate := n.selection.map fun s => coordinate n.group n.artifact s.version

theorem not_mem_drawing {c : Char} (h : c ∉ [' ', '|', '+', '-', '\\']) : c ∉ n.drawing := by
  intro mem
  exact h (by simpa using n.drawing_drawn c mem)

end TreeLine

section Starts
variable {α : Type} {found : List Char → Option (α × List Char)}

/-- Whatever is found starts with a name and a colon. -/
def StartsWithName (found : List Char → Option (α × List Char)) : Prop :=
  ∀ s a r, found s = some (a, r) → ∃ g t, IsName g ∧ s = g ++ ':' :: t

theorem startsWithName_token? : StartsWithName token? := by
  intro s c r h
  obtain ⟨g, a, v, hg, _, _, _, _, rfl⟩ := token?_eq_some_iff.1 h
  exact ⟨g, a ++ ':' :: v ++ r, hg, by simp⟩

theorem startsWithName_conflict? : StartsWithName conflict? := by
  intro s c r h
  obtain ⟨g, a, v, w, before, after, hg, _, _, _, _, _, _, _, _, rfl⟩ := conflict?_eq_some_iff.1 h
  exact ⟨g, a ++ ':' :: v ++ before ++ '-' :: '>' :: after ++ w ++ r, hg, by simp⟩

theorem StartsWithName.eq_none (starts : StartsWithName found) {s : List Char} (h : ':' ∉ s) :
    found s = none := by
  rw [Option.eq_none_iff_forall_ne_some]
  intro result read
  obtain ⟨g, t, _, rfl⟩ := starts s result.1 result.2 read
  simp at h

/-- A name does not go on over a space, and the space stands before the first colon. -/
theorem StartsWithName.eq_none_of_space (starts : StartsWithName found) {t s : List Char}
    (space : ' ' ∈ t) (colon : ':' ∉ t) : found (t ++ s) = none := by
  rw [Option.eq_none_iff_forall_ne_some]
  intro result read
  obtain ⟨g, rest, hg, split⟩ := starts _ result.1 result.2 read
  have outside : ' ' ∉ g := hg.not_mem (by decide)
  obtain ⟨more, rfl, _⟩ | ⟨more, rfl, behind⟩ := List.append_eq_append_iff.1 split
  · exact outside (List.mem_append_left _ space)
  · cases more with
    | nil => exact outside (by simpa using space)
    | cons c more =>
        obtain ⟨rfl, _⟩ := List.cons.inj behind
        simp at colon

theorem TreeLine.scan_text (n : TreeLine) (starts : StartsWithName found) {a : α}
    {text rest : List Char} (nonempty : text ≠ []) (here : found (text ++ rest) = some (a, rest))
    (colon : ':' ∉ rest) : Text.scan (fun _ => found) (n.drawing ++ (text ++ rest)) = [a] := by
  have drawing (q : Option Char) (t : List Char) (ht : t ≠ []) (within : t <:+ n.drawing) :
      found (t ++ (text ++ rest)) = none := by
    obtain ⟨first, whole⟩ := within
    have space : ' ' ∈ t := by
      obtain nothing | last := n.drawing_ends
      · simp [← whole, ht] at nothing
      · rw [← whole, List.getLast?_append, List.getLast?_eq_some_getLast ht] at last
        exact Option.some.inj last ▸ List.getLast_mem ht
    refine starts.eq_none_of_space space fun mem => ?_
    exact n.not_mem_drawing (by decide) (whole ▸ List.mem_append_right _ mem)
  have quiet (q : Option Char) (t : List Char) (within : t <:+ rest) : found t = none :=
    starts.eq_none fun mem => colon (within.subset mem)
  rw [Text.scan, Text.scanFrom_of_forall_none drawing, Text.scanFrom_of_some nonempty here,
    Text.scanFrom_eq_nil quiet]

end Starts

section Arrows

theorem arrow_of_conflict? {s r : List Char} {pair : Coordinate × Coordinate}
    (h : conflict? s = some (pair, r)) : ['-', '>'] <:+: s := by
  obtain ⟨g, a, v, w, before, after, _, _, _, _, _, _, _, _, _, rfl⟩ := conflict?_eq_some_iff.1 h
  exact ⟨g ++ ':' :: a ++ ':' :: v ++ before, after ++ w ++ r, by simp⟩

theorem conflictsOn_eq_nil {line : List Char} (h : ¬ ['-', '>'] <:+: line) :
    conflictsOn line = [] := by
  apply Text.scanFrom_eq_nil
  intro q t within
  rw [Option.eq_none_iff_forall_ne_some]
  intro result read
  exact h ((arrow_of_conflict? read).trans within.isInfix)

theorem not_arrow_append {a s : List Char} (ha : '>' ∉ a) (hs : s.head? ≠ some '>')
    (h : ¬ ['-', '>'] <:+: s) : ¬ ['-', '>'] <:+: a ++ s := by
  induction a with
  | nil => exact h
  | cons c a ih =>
      obtain ⟨_, ha⟩ := not_or.1 (mt List.mem_cons.2 ha)
      rw [List.cons_append, List.infix_cons_iff]
      intro h
      obtain front | behind := h
      · obtain ⟨_, next⟩ := List.cons_prefix_cons.1 front
        cases a with
        | nil =>
            obtain ⟨r, rfl⟩ := next
            exact hs rfl
        | cons d a =>
            obtain ⟨rfl, _⟩ := List.cons_prefix_cons.1 next
            exact ha List.mem_cons_self
      · exact ih ha behind

end Arrows

namespace TreeLine
variable (n : TreeLine)

theorem endsVersion_remark : EndsVersion n.remark := by
  intro c hc
  obtain nothing | space := n.remark_starts
  · rw [nothing] at hc
    cases hc
  · cases space.symm.trans hc
    decide

theorem endsVersion_tail : EndsVersion n.tail := by
  rw [tail]
  cases n.selection with
  | none => exact n.endsVersion_remark
  | some s =>
      obtain ⟨c, before, split⟩ := List.exists_cons_of_ne_nil s.before_ne_nil
      intro d hd
      rw [Option.elim_some, Selection.text, split] at hd
      cases hd
      exact not_isVersionPart_of_isBlank (s.before_blank c (split ▸ List.mem_cons_self))

theorem colon_not_mem_tail : ':' ∉ n.tail := by
  rw [tail]
  cases n.selection with
  | none => exact n.remark_colon
  | some s =>
      have before : ':' ∉ s.before := fun mem => by cases s.before_blank _ mem
      have after : ':' ∉ s.after := fun mem => by cases s.after_blank _ mem
      have version : ':' ∉ s.version := s.version_word.not_mem (by decide)
      simp [Selection.text, before, after, version, n.remark_colon]

theorem tokensOn_text : tokensOn n.text = [n.requested] := by
  have here : token? (n.group ++ ':' :: n.artifact ++ ':' :: n.version ++ n.tail) =
      some (n.requested, n.tail) :=
    token?_eq_some_iff.2 ⟨n.group, n.artifact, n.version, n.group_word, n.artifact_word,
      n.version_word, n.endsVersion_tail, rfl, rfl⟩
  exact n.scan_text startsWithName_token? (by simp) here n.colon_not_mem_tail

theorem not_arrow_text (h : n.selection = none) : ¬ ['-', '>'] <:+: n.text := by
  have drawing : '>' ∉ n.drawing := n.not_mem_drawing (by decide)
  have group : '>' ∉ n.group := n.group_word.not_mem (by decide)
  have artifact : '>' ∉ n.artifact := n.artifact_word.not_mem (by decide)
  have version : '>' ∉ n.version := n.version_word.not_mem (by decide)
  have head : n.remark.head? ≠ some '>' := by
    obtain nothing | space := n.remark_starts
    · simp [nothing]
    · simp [space]
  rw [text, tail, h, Option.elim_none, List.nil_append, ← List.append_assoc]
  refine not_arrow_append ?_ head n.remark_arrow
  simp [drawing, group, artifact, version]

theorem conflictsOn_text : (conflictsOn n.text).map (·.2) = n.selected.toList := by
  cases h : n.selection with
  | none =>
      rw [conflictsOn_eq_nil (n.not_arrow_text h), selected, h]
      rfl
  | some s =>
      have here :
          conflict? (n.group ++ ':' :: n.artifact ++ ':' :: n.version ++ s.text ++ n.remark) =
            some ((n.requested, coordinate n.group n.artifact s.version), n.remark) :=
        conflict?_eq_some_iff.2 ⟨n.group, n.artifact, n.version, s.version, s.before, s.after,
          n.group_word, n.artifact_word, n.version_word, s.version_word, s.before_blank,
          s.after_blank, n.endsVersion_remark, rfl, rfl, by simp [Selection.text]⟩
      have found := n.scan_text startsWithName_conflict? (by simp) here n.remark_colon
      have split : n.text = n.drawing ++
          (n.group ++ ':' :: n.artifact ++ ':' :: n.version ++ s.text ++ n.remark) := by
        rw [text, tail, h, Option.elim_some]
        simp
      rw [conflictsOn, split, found, selected, h]
      rfl

theorem onLine_text : onLine n.text = n.requested :: n.selected.toList := by
  rw [onLine, tokensOn_text, conflictsOn_text]
  rfl

end TreeLine

theorem onLine_eq_nil {line : List Char} (h : ':' ∉ line) : onLine line = [] := by
  have tokens (q : Option Char) (t : List Char) (within : t <:+ line) : token? t = none :=
    startsWithName_token?.eq_none fun mem => h (within.subset mem)
  have conflicts (q : Option Char) (t : List Char) (within : t <:+ line) : conflict? t = none :=
    startsWithName_conflict?.eq_none fun mem => h (within.subset mem)
  rw [onLine, tokensOn, conflictsOn, Text.scan, Text.scan, Text.scanFrom_eq_nil tokens,
    Text.scanFrom_eq_nil conflicts]
  rfl

/-- A coordinate that some line of a text requests or selects. -/
def Resolves (text : List Char) (name : String) : Prop :=
  ∃ n : TreeLine, n.text ∈ Text.splitLines text ∧
    (name = n.requested.text ∨ ∃ c, n.selected = some c ∧ name = c.text)

/-- From a printed tree the requested and the selected coordinates are read and nothing
else, so that evidence of it leaves exactly these unflagged. -/
theorem ofText_tree {text : List Char}
    (tree : ∀ line ∈ Text.splitLines text, ':' ∉ line ∨ ∃ n : TreeLine, n.text = line) :
    (∀ name, name ∈ ofText text ↔ Resolves text name) ∧
      ∀ (tables : Tables) (d : Declaration),
        (Verdict.of tables (some (ofText text)) d).flagged = false ↔
          Resolves text d.coordinate.text := by
  have exactly (name : String) : name ∈ ofText text ↔ Resolves text name := by
    rw [mem_ofText_iff, Resolves]
    constructor
    · intro h
      obtain ⟨line, hline, c, member, rfl⟩ := h
      obtain colon | ⟨n, rfl⟩ := tree line hline
      · rw [onLine_eq_nil colon] at member
        cases member
      · refine ⟨n, hline, ?_⟩
        rw [n.onLine_text, List.mem_cons, Option.mem_toList] at member
        obtain rfl | chosen := member
        · exact .inl rfl
        · exact .inr ⟨c, chosen, rfl⟩
    · intro h
      obtain ⟨n, hline, named⟩ := h
      refine ⟨n.text, hline, ?_⟩
      rw [n.onLine_text]
      obtain rfl | ⟨c, chosen, rfl⟩ := named
      · exact ⟨_, List.mem_cons_self, rfl⟩
      · exact ⟨c, List.mem_cons_of_mem _ (Option.mem_toList.2 chosen), rfl⟩
  refine ⟨exactly, fun tables d => ?_⟩
  rw [← exactly]
  simp [Verdict.of, Verdict.byEvidence]

/-- The line `|    +--- org.a-b:c:1.0- -> 2.0+b (was 3)`. -/
def conflictLine : TreeLine where
  drawing := "|    +--- ".toList
  group := "org.a-b".toList
  artifact := "c".toList
  version := "1.0-".toList
  selection := some {
    before := [' ']
    after := [' ']
    version := "2.0+b".toList
    before_ne_nil := by decide
    before_blank := by unfold Text.Blank; decide
    after_blank := by unfold Text.Blank; decide
    version_word := isVersion_iff.2 (by decide +kernel) }
  remark := " (was 3)".toList
  drawing_drawn := by decide +kernel
  drawing_ends := by decide +kernel
  group_word := isName_iff.2 (by decide +kernel)
  artifact_word := isName_iff.2 (by decide +kernel)
  version_word := isVersion_iff.2 (by decide +kernel)
  remark_starts := by decide +kernel
  remark_colon := by decide +kernel
  remark_arrow := by decide +kernel

/-- Both sides of a conflict count as resolved, but not a version in a remark. -/
theorem ofText_tree_of_conflict :
    (∀ line ∈ Text.splitLines ("debug\n".toList ++ conflictLine.text),
      ':' ∉ line ∨ ∃ n : TreeLine, n.text = line) ∧
      Resolves ("debug\n".toList ++ conflictLine.text) "org.a-b:c:1.0-" ∧
      Resolves ("debug\n".toList ++ conflictLine.text) "org.a-b:c:2.0+b" ∧
      ¬ Resolves ("debug\n".toList ++ conflictLine.text) "org.a-b:c:3" := by
  have lines : Text.splitLines ("debug\n".toList ++ conflictLine.text) =
      ["debug".toList, conflictLine.text] := by decide +kernel
  have tree : ∀ line ∈ Text.splitLines ("debug\n".toList ++ conflictLine.text),
      ':' ∉ line ∨ ∃ n : TreeLine, n.text = line := by
    rw [lines]
    intro line hline
    obtain rfl | hline := List.mem_cons.1 hline
    · exact .inl (by decide +kernel)
    · exact .inr ⟨conflictLine, (List.mem_singleton.1 hline).symm⟩
  have exactly := (ofText_tree tree).1
  refine ⟨tree, (exactly _).1 ?_, (exactly _).1 ?_, mt (exactly _).2 ?_⟩
  all_goals decide +kernel

end DependencyAudit.Evidence
