import Mathlib
import DependencyAudit.Proofs.Declaration.Grammar
import DependencyAudit.Proofs.Text.Lowercase

/-!
Keywords against the kind that a line reads as. Every keyword of tests, debug builds
and annotation processors holds a marker of its kind, so what it declares has that
kind or one of higher precedence. The markers of `api` spell out what follows it, and
there are spacings of a declaration that none of them spells.
-/
namespace DependencyAudit

namespace Kind

/-- Kinds of higher precedence have a lower rank. -/
def rank : Kind → Nat
  | test => 0
  | debug => 1
  | annotationProcessor => 2
  | api => 3
  | implementation => 4

theorem rank_le_implementation (k : Kind) : k.rank ≤ implementation.rank := by
  cases k <;> decide

section Markers
variable {line : List Char}

/-- The markers stand in order of precedence, so the first one found has the highest. -/
theorem rank_ofLine_le {m : Kind × List String} (h : m ∈ markers)
    (here : marked (Text.lower line) m.2 = true) : (ofLine line).rank ≤ m.1.rank := by
  have ordered : markers.Pairwise fun m n => m.1.rank ≤ n.1.rank := by decide
  cases found : markers.find? fun m => marked (Text.lower line) m.2 with
  | none => exact absurd here (List.find?_eq_none.1 found m h)
  | some first =>
      obtain ⟨_, before, after, split, unmarked⟩ := List.find?_eq_some_iff_append.1 found
      have reads : ofLine line = first.1 := by simp only [ofLine, found]
      rw [split, List.mem_append, List.mem_cons] at h
      rw [split, List.pairwise_append, List.pairwise_cons] at ordered
      rw [reads]
      obtain earlier | rfl | later := h
      · exact absurd here (by simpa using unmarked m earlier)
      · exact Nat.le_refl _
      · exact ordered.2.1.1 m later

/-- A kind of its own comes from a marker of that kind. -/
theorem exists_marked_of_ofLine (h : ofLine line ≠ implementation) :
    ∃ m ∈ markers, m.1 = ofLine line ∧ marked (Text.lower line) m.2 = true := by
  cases found : markers.find? fun m => marked (Text.lower line) m.2 with
  | none => exact absurd (by simp only [ofLine, found]) h
  | some m =>
      have here := List.find?_some (p := fun m : Kind × List String =>
        marked (Text.lower line) m.2) found
      exact ⟨m, List.mem_of_find?_eq_some found, by simp only [ofLine, found], here⟩

theorem marked_iff {words : List String} :
    marked (Text.lower line) words = true ↔ ∃ w ∈ words, w.toList <:+: Text.lower line := by
  simp [marked, Text.occursIn_iff]

theorem marked_of_occurs {words : List String} {w : String} {text : List Char} (hw : w ∈ words)
    (ascii : ∀ c ∈ text, c.toNat < 0x80) (inside : w.toList <:+: text.map Char.toLower)
    (h : text <:+: line) : marked (Text.lower line) words = true :=
  marked_iff.2 ⟨w, hw, inside.trans (Text.map_toLower_infix_lower ascii h)⟩

end Markers

def apiMarkers : List String := ["api(", "api (", "api '", "api \""]

/-- The markers of the kinds that come before `api`. -/
def earlierMarkers : List String := ["test", "debug", "annotationprocessor", "kapt", "ksp"]

theorem markers_api {m : Kind × List String} (h : m ∈ markers) (own : m.1 = api) :
    m.2 = apiMarkers := by
  revert m
  decide

theorem mem_earlierMarkers {m : Kind × List String} (h : m ∈ markers) (other : m.1 ≠ api) :
    ∀ w ∈ m.2, w ∈ earlierMarkers := by
  revert m
  decide

theorem toNat_lt_of_isAlpha {c : Char} (h : c.isAlpha = true) : c.toNat < 0x80 := by
  simp only [Char.isAlpha, Char.isUpper, Char.isLower, Bool.or_eq_true, Bool.and_eq_true,
    decide_eq_true_eq] at h
  obtain ⟨_, most⟩ | ⟨_, most⟩ := h
  · exact Nat.lt_of_le_of_lt (m := 'Z'.toNat) most (by decide)
  · exact Nat.lt_of_le_of_lt (m := 'z'.toNat) most (by decide)

/-- The keywords of these families hold a marker of their kind, in whichever case. -/
theorem rank_ofLine_le_of_keyword {family : Kind} {keyword : String}
    (h : IsKeyword family keyword) (named : family ≠ api) {line : List Char}
    (inside : keyword.toList <:+: line) : (ofLine line).rank ≤ family.rank := by
  by_cases plain : family = implementation
  · exact plain ▸ rank_le_implementation _
  have ascii : ∀ c ∈ keyword.toList, c.toNat < 0x80 := fun c hc =>
    toNat_lt_of_isAlpha (isAlpha_of_mem_keyword h c hc)
  have spelled : ∃ m ∈ markers, m.1 = family ∧
      ∃ w ∈ m.2, w.toList <:+: keyword.toList.map Char.toLower := by
    cases h with
    | implementation => exact absurd rfl plain
    | api => exact absurd rfl named
    | annotationProcessor | kapt | ksp => decide
    | debug =>
        refine ⟨(debug, ["debug"]), by decide, rfl, "debug", List.mem_singleton_self _, ?_⟩
        rw [String.toList_append, List.map_append]
        exact ⟨[], _, rfl⟩
    | @test platform word part path _ hword =>
        refine ⟨(test, ["test"]), by decide, rfl, "test", List.mem_singleton_self _, ?_⟩
        have lowered : word.toList.map Char.toLower = "test".toList := by
          obtain rfl | rfl := hword <;> decide
        simp only [String.toList_append, List.map_append, lowered]
        exact ⟨platform.toList.map Char.toLower,
          part.toList.map Char.toLower ++ path.toList.map Char.toLower,
          by simp only [List.append_assoc]⟩
  obtain ⟨m, hm, rfl, w, hw, lowered⟩ := spelled
  exact rank_ofLine_le hm (marked_of_occurs hw ascii lowered inside)

end Kind

/-- The spacings of `api` that its markers spell out: one blank in front of the quote,
or a parenthesis with one blank at most in front of it. -/
def Spelled (gap : List Char) : Prop := gap = [' '] ∨ ['('] <+: gap ∨ [' ', '('] <+: gap

/-- Some declaration of `api` on the line is spaced as the markers spell it. -/
def SpellsApi (line : List Char) : Prop :=
  ∃ c gap literal, Gap gap ∧ Spelled gap ∧ Literal c literal ∧
    "api".toList ++ gap ++ literal <:+: line

theorem exists_marker_prefix {gap literal : List Char} {c : Coordinate} (hgap : Spelled gap)
    (hliteral : Literal c literal) :
    ∃ w ∈ Kind.apiMarkers, w.toList <+: "api".toList ++ gap ++ literal := by
  rw [List.append_assoc]
  obtain rfl | ⟨rest, rfl⟩ | ⟨rest, rfl⟩ := hgap
  · obtain ⟨hq, _, _, _⟩ := hliteral
    obtain rfl | rfl := hq
    · exact ⟨"api '", by decide, _, rfl⟩
    · exact ⟨"api \"", by decide, _, rfl⟩
  · exact ⟨"api(", by decide, rest ++ literal, rfl⟩
  · exact ⟨"api (", by decide, rest ++ literal, rfl⟩

theorem SpellsApi.rank_ofLine_le {line : List Char} (h : SpellsApi line) :
    (Kind.ofLine line).rank ≤ Kind.api.rank := by
  obtain ⟨c, gap, literal, _, hgap, hliteral, inside⟩ := h
  obtain ⟨w, hw, front⟩ := exists_marker_prefix hgap hliteral
  have lowered : ∀ w ∈ Kind.apiMarkers,
      (∀ c ∈ w.toList, c.toNat < 0x80) ∧ w.toList <:+: w.toList.map Char.toLower := by
    decide +kernel
  have marker : (Kind.api, Kind.apiMarkers) ∈ Kind.markers := by decide
  exact Kind.rank_ofLine_le marker (Kind.marked_of_occurs hw (lowered w hw).1 (lowered w hw).2
    (front.isInfix.trans inside))

theorem SpellsApi.ofLine_eq {line : List Char} (h : SpellsApi line)
    (others : ∀ w ∈ Kind.earlierMarkers, ¬w.toList <:+: Text.lower line) :
    Kind.ofLine line = .api := by
  have bound := h.rank_ofLine_le
  have own : Kind.ofLine line ≠ .implementation := by
    intro plain
    rw [plain] at bound
    exact absurd bound (by decide)
  obtain ⟨m, hm, same, here⟩ := Kind.exists_marked_of_ofLine own
  obtain ⟨w, hw, inside⟩ := Kind.marked_iff.1 here
  rw [← same]
  by_cases other : m.1 = .api
  · exact other
  · exact absurd inside (others w (Kind.mem_earlierMarkers hm other w hw))

/-- What a keyword declares never reads as a kind of lower precedence than the keyword's
own, where a declaration of `api` is spaced as the markers spell it; without a marker of
another kind it then reads as `api`. -/
theorem Declaration.rank_kind_le {number : Int} {line : String} {found : Kind × Declaration}
    (h : found ∈ Declaration.onLine number line.toList)
    (spelled : found.1 = .api → SpellsApi line.toList) :
    found.2.kind.rank ≤ found.1.rank ∧
      (found.1 = .api →
        (∀ w ∈ Kind.earlierMarkers, ¬w.toList <:+: Text.lower line.toList) →
          found.2.kind = .api) := by
  obtain ⟨kind, text, inside, ⟨hkeyword, _, _⟩⟩ := exists_written_of_mem_onLine h
  rw [kind]
  refine ⟨?_, fun own others => (spelled own).ofLine_eq others⟩
  by_cases own : found.1 = .api
  · exact own ▸ (spelled own).rank_ofLine_le
  · rw [List.append_assoc] at inside
    exact Kind.rank_ofLine_le_of_keyword hkeyword own
      ((List.prefix_append _ _).isInfix.trans inside)

/-- A parenthesis right behind the keyword. -/
theorem Declaration.rank_kind_le_of_parenthesis :
    ∃ found, (found ∈ Declaration.onLine 3 "api( 'org.slf4j:slf4j-api:2.0.9')".toList ∧
      found.1 = .api ∧ SpellsApi "api( 'org.slf4j:slf4j-api:2.0.9')".toList) ∧
      found.2.kind = .api := by
  have spells : SpellsApi "api( 'org.slf4j:slf4j-api:2.0.9')".toList := by
    have blank : Text.Blank [' '] := by unfold Text.Blank; decide
    have literal : Literal ⟨"org.slf4j", "slf4j-api", "2.0.9"⟩
        "'org.slf4j:slf4j-api:2.0.9'".toList :=
      .quoted (.inl rfl) (isName_iff.2 (by decide +kernel)) (isName_iff.2 (by decide +kernel))
        (isVersion_iff.2 (by decide +kernel))
    exact ⟨_, ['(', ' '], _, .parenthesis (s := []) nofun blank, .inr (.inl ⟨[' '], rfl⟩),
      literal, [], [')'], by decide⟩
  let found : Kind × Declaration := (.api,
    ⟨⟨"org.slf4j", "slf4j-api", "2.0.9"⟩, 3, "api( 'org.slf4j:slf4j-api:2.0.9')", .api⟩)
  have read : found ∈ Declaration.onLine 3 "api( 'org.slf4j:slf4j-api:2.0.9')".toList := by
    decide +kernel
  exact ⟨found, ⟨read, rfl, spells⟩,
    (Declaration.rank_kind_le read fun _ => spells).2 rfl (by
      simp only [← Text.occursIn_iff]
      decide +kernel)⟩

/-- Two blanks in front of the quote. -/
theorem Declaration.kind_of_wide_gap :
    ∃ found ∈ Declaration.onLine 1 "api  'com.squareup.moshi:moshi:1.15.0'".toList,
      found.1 = .api ∧ found.2.kind = .implementation ∧ found.1.rank < found.2.kind.rank := by
  decide +kernel

theorem spelled_of_prefix {gap s : List Char} (hgap : Gap gap) {w : String}
    (hw : w ∈ Kind.apiMarkers)
    (front : w.toList <+: "api".toList ++ (gap ++ '\'' :: s)) : Spelled gap := by
  have marks : ∀ w ∈ Kind.apiMarkers,
      ∃ t, w.toList = "api".toList ++ t ∧ (t = ['('] ∨ ∃ c ∈ ['(', '\'', '"'], t = [' ', c]) := by
    intro w hw
    simp only [Kind.apiMarkers, List.mem_cons, List.not_mem_nil, or_false] at hw
    obtain rfl | rfl | rfl | rfl := hw
    · exact ⟨['('], rfl, .inl rfl⟩
    · exact ⟨[' ', '('], rfl, .inr ⟨'(', by decide, rfl⟩⟩
    · exact ⟨[' ', '\''], rfl, .inr ⟨'\'', by decide, rfl⟩⟩
    · exact ⟨[' ', '"'], rfl, .inr ⟨'"', by decide, rfl⟩⟩
  obtain ⟨t, split, mark⟩ := marks w hw
  rw [split, List.prefix_append_right_inj] at front
  obtain rfl | ⟨c, hc, rfl⟩ := mark
  · cases gap with
    | nil => simp at front
    | cons b gap =>
        obtain ⟨rfl, _⟩ := List.cons_prefix_cons.1 front
        exact .inr (.inl ⟨gap, rfl⟩)
  · cases gap with
    | nil => simp at front
    | cons b gap =>
        obtain ⟨rfl, next⟩ := List.cons_prefix_cons.1 front
        cases gap with
        | nil => exact .inl rfl
        | cons d gap =>
            obtain ⟨rfl, _⟩ := List.cons_prefix_cons.1 next
            obtain blank | parenthesis := hgap.blank_or_parenthesis c (by simp)
            · have visible : ∀ c ∈ ['(', '\'', '"'], Text.isBlank c = false := by decide
              cases (visible c hc).symm.trans blank
            · exact .inr (.inr ⟨gap, by rw [parenthesis]; rfl⟩)

section Plain
variable {gap : List Char}

theorem lower_plain (hgap : Gap gap) :
    Text.lower ("api".toList ++ gap ++ "'x:y:1'".toList) =
      "api".toList ++ gap ++ "'x:y:1'".toList := by
  have plain : ∀ c ∈ "(api'x:y:1'".toList, Text.IsLower c := by decide
  apply Text.lowerFrom_eq_self
  intro c hc
  rw [List.mem_append, List.mem_append] at hc
  obtain (keyword | between) | literal := hc
  · exact plain c (List.mem_cons_of_mem _ (List.mem_append_left "'x:y:1'".toList keyword))
  · obtain blank | rfl := hgap.blank_or_parenthesis c between
    · exact Text.isLower_of_isBlank blank
    · exact plain _ (by decide)
  · exact plain c (List.mem_append_right "(api".toList literal)

/-- Neither the quote nor what is in a gap is a letter, so a word of letters stands in the
keyword or in the literal. -/
theorem not_infix_plain (hgap : Gap gap) :
    ∀ w ∈ Kind.earlierMarkers, ¬w.toList <:+: "api".toList ++ gap ++ "'x:y:1'".toList := by
  have absent : ∀ w ∈ Kind.earlierMarkers,
      (∀ c ∈ w.toList, c.isAlpha = true) ∧ w.toList ≠ [] ∧
        Text.occursIn w.toList "api".toList = false ∧
        Text.occursIn w.toList "x:y:1'".toList = false := by
    decide +kernel
  intro w hw inside
  obtain ⟨letters, nonempty, keyword, literal⟩ := absent w hw
  have quote : '\'' ∉ w.toList := by
    intro mem
    cases letters _ mem
  have between : ∀ c ∈ gap, c ∉ w.toList := by
    intro c hc mem
    have letter := letters c mem
    obtain blank | rfl := hgap.blank_or_parenthesis c hc
    · cases (Text.not_isAlpha_of_isBlank blank).symm.trans letter
    · cases letter
  obtain front | behind := Text.infix_or_infix (y := "x:y:1'".toList) quote inside
  · have found := Text.occursIn_iff.2 (Text.infix_of_append nonempty between front)
    cases keyword.symm.trans found
  · cases literal.symm.trans (Text.occursIn_iff.2 behind)

/-- Of all the spacings that a declaration may have, these alone read as `api`. -/
theorem Kind.ofLine_eq_api_iff (hgap : Gap gap) :
    Kind.ofLine ("api".toList ++ gap ++ "'x:y:1'".toList) = .api ↔ Spelled gap := by
  constructor
  · intro reads
    obtain ⟨m, hm, same, here⟩ := Kind.exists_marked_of_ofLine (by rw [reads]; decide)
    obtain ⟨w, hw, inside⟩ := Kind.marked_iff.1 here
    have starts : ∀ w ∈ Kind.apiMarkers, w.toList.head? = some 'a' := by decide
    rw [Kind.markers_api hm (same.trans reads)] at hw
    rw [lower_plain hgap, List.append_assoc] at inside
    have only : 'a' ∉ "pi".toList ++ (gap ++ "'x:y:1'".toList) := by
      have outside : 'a' ∉ gap := hgap.not_mem (by decide) (by decide)
      simp [outside]
    obtain front | behind := List.infix_cons_iff.1 inside
    · exact spelled_of_prefix hgap hw front
    · exact absurd (behind.subset (List.mem_of_mem_head? (starts w hw))) only
  · intro spelled
    have literal : Literal ⟨"x", "y", "1"⟩ "'x:y:1'".toList :=
      .quoted (.inl rfl) (isName_iff.2 (by decide)) (isName_iff.2 (by decide))
        (isVersion_iff.2 (by decide))
    have spells : SpellsApi ("api".toList ++ gap ++ "'x:y:1'".toList) :=
      ⟨_, gap, _, hgap, spelled, literal, List.infix_rfl⟩
    apply spells.ofLine_eq
    rw [lower_plain hgap]
    exact not_infix_plain hgap

end Plain

end DependencyAudit
