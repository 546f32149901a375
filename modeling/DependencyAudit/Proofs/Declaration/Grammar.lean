import DependencyAudit.Declaration.Reading
import DependencyAudit.Proofs.Text.Blank
import DependencyAudit.Proofs.Text.Scan

/-!
The grammar of declarations on a line: a keyword, white space with at most one
parenthesis in it, and a coordinate in quotes. What is read from a line is, family
by family, the leftmost choice of what the grammar finds there. At each place the
grammar finds one declaration at most, so the choice is determined.
-/
namespace DependencyAudit

inductive IsPath : String → Prop
  | implementation : IsPath "Implementation"
  | api : IsPath "Api"
  | compileOnly : IsPath "CompileOnly"
  | runtimeOnly : IsPath "RuntimeOnly"

/-- How the keywords of a family are spelled. -/
inductive IsKeyword : Kind → String → Prop
  | implementation : IsKeyword .implementation "implementation"
  | api : IsKeyword .api "api"
  | test {platform word part path : String} (hplatform : platform = "" ∨ platform = "android")
      (hword : word = "test" ∨ word = "Test") (hpart : part = "" ∨ part = "Fixtures")
      (hpath : IsPath path) : IsKeyword .test (platform ++ word ++ part ++ path)
  | debug {path : String} (hpath : IsPath path) : IsKeyword .debug ("debug" ++ path)
  | annotationProcessor : IsKeyword .annotationProcessor "annotationProcessor"
  | kapt : IsKeyword .annotationProcessor "kapt"
  | ksp : IsKeyword .annotationProcessor "ksp"

/-- What stands between a keyword and its literal. -/
inductive Gap : List Char → Prop
  | blank {s : List Char} (hs : Text.Blank s) : Gap s
  | parenthesis {s t : List Char} (hs : Text.Blank s) (ht : Text.Blank t) : Gap (s ++ '(' :: t)

def IsName (s : String) : Prop :=
  s.toList ≠ [] ∧ ∀ c ∈ s.toList, c ≠ '\'' ∧ c ≠ '"' ∧ c ≠ ':' ∧ Text.isBlank c = false

/-- A version may have colons in it. -/
def IsVersion (s : String) : Prop :=
  s.toList ≠ [] ∧ ∀ c ∈ s.toList, c ≠ '\'' ∧ c ≠ '"' ∧ Text.isBlank c = false

inductive Literal (c : Coordinate) : List Char → Prop
  | quoted {q : Char} (hq : q = '\'' ∨ q = '"') (group : IsName c.group)
      (artifact : IsName c.artifact) (version : IsVersion c.version) :
      Literal c (q :: c.text.toList ++ [q])

inductive Written (family : Kind) (c : Coordinate) : List Char → Prop
  | declared {keyword : String} {gap literal : List Char} (hkeyword : IsKeyword family keyword)
      (hgap : Gap gap) (hliteral : Literal c literal) :
      Written family c (keyword.toList ++ gap ++ literal)

/-- A declaration stands in a line, not behind a word character or a dot. -/
def DeclaredIn (family : Kind) (line : List Char) (x : Text.Span Coordinate) : Prop :=
  ∃ before text after, line = before ++ text ++ after ∧ x.start = before.length ∧
    x.stop = before.length + text.length ∧
    (∀ c, before.getLast? = some c → Text.isWord c = false ∧ c ≠ '.') ∧
    Written family x.value text

theorem Gap.blank_or_parenthesis {gap : List Char} (h : Gap gap) :
    ∀ c ∈ gap, Text.isBlank c = true ∨ c = '(' := by
  intro c hc
  cases h with
  | blank hs => exact .inl (hs c hc)
  | parenthesis hs ht =>
      obtain front | here | behind := by simpa only [List.mem_append, List.mem_cons] using hc
      · exact .inl (hs c front)
      · exact .inr here
      · exact .inl (ht c behind)

theorem Gap.not_mem {gap : List Char} (h : Gap gap) {c : Char} (visible : Text.isBlank c = false)
    (other : c ≠ '(') : c ∉ gap := by
  intro mem
  obtain blank | parenthesis := h.blank_or_parenthesis c mem
  · cases visible.symm.trans blank
  · exact other parenthesis

section Keywords

theorem mem_paths {path : String} : path ∈ Kind.paths ↔ IsPath path := by
  constructor
  · intro h
    simp only [Kind.paths, List.mem_cons, List.not_mem_nil, or_false] at h
    obtain rfl | rfl | rfl | rfl := h
    all_goals constructor
  · intro h
    cases h with
    | implementation | api | compileOnly | runtimeOnly => decide

theorem mem_keywords {family : Kind} {keyword : String} :
    keyword ∈ family.keywords ↔ IsKeyword family keyword := by
  constructor
  · intro h
    cases family with
    | implementation => cases List.mem_singleton.1 h; exact .implementation
    | api => cases List.mem_singleton.1 h; exact .api
    | test =>
        simp only [Kind.keywords, Kind.testKeywords, List.mem_flatMap, List.mem_map] at h
        obtain ⟨platform, hplatform, word, hword, part, hpart, path, hpath, rfl⟩ := h
        exact .test (by simpa [or_comm] using hplatform) (by simpa using hword)
          (by simpa [or_comm] using hpart) (mem_paths.1 hpath)
    | debug =>
        obtain ⟨path, hpath, rfl⟩ := List.mem_map.1 h
        exact .debug (mem_paths.1 hpath)
    | annotationProcessor =>
        simp only [Kind.keywords, List.mem_cons, List.not_mem_nil, or_false] at h
        obtain rfl | rfl | rfl := h
        · exact .annotationProcessor
        · exact .kapt
        · exact .ksp
  · intro h
    cases h with
    | implementation | api | annotationProcessor | kapt | ksp => decide
    | test hplatform hword hpart hpath =>
        simp only [Kind.keywords, Kind.testKeywords, List.mem_flatMap, List.mem_map]
        exact ⟨_, by simpa [or_comm] using hplatform, _, by simpa using hword, _,
          by simpa [or_comm] using hpart, _, mem_paths.2 hpath, rfl⟩
    | debug hpath => exact List.mem_map.2 ⟨_, mem_paths.2 hpath, rfl⟩

theorem isAlpha_of_mem_path {path : String} (h : IsPath path) :
    ∀ c ∈ path.toList, c.isAlpha = true := by
  cases h <;> decide

/-- Keywords are made of letters, so a keyword ends where the letters do. -/
theorem isAlpha_of_mem_keyword {family : Kind} {keyword : String} (h : IsKeyword family keyword) :
    ∀ c ∈ keyword.toList, c.isAlpha = true := by
  cases h with
  | implementation | api | annotationProcessor | kapt | ksp => decide
  | debug hpath =>
      rw [String.toList_append, List.forall_mem_append]
      exact ⟨by decide, isAlpha_of_mem_path hpath⟩
  | test hplatform hword hpart hpath =>
      simp only [String.toList_append, List.forall_mem_append]
      refine ⟨⟨⟨?platform, ?word⟩, ?part⟩, isAlpha_of_mem_path hpath⟩
      case platform => obtain rfl | rfl := hplatform <;> decide
      case word => obtain rfl | rfl := hword <;> decide
      case part => obtain rfl | rfl := hpart <;> decide

end Keywords

section Literals

theorem isQuote_iff {q : Char} : isQuote q = true ↔ q = '\'' ∨ q = '"' := by
  simp [isQuote]

theorem isName_iff {s : String} :
    IsName s ↔ s.toList ≠ [] ∧ ∀ c ∈ s.toList, isNameChar c = true := by
  simp [IsName, isNameChar, isQuote, and_assoc]

theorem isVersion_iff {s : String} :
    IsVersion s ↔ s.toList ≠ [] ∧ ∀ c ∈ s.toList, isVersionChar c = true := by
  simp [IsVersion, isVersionChar, isQuote, and_assoc]

theorem literal?_eq_some_iff {s r : List Char} {c : Coordinate} :
    literal? s = some (c, r) ↔ ∃ text, Literal c text ∧ s = text ++ r := by
  cases s with
  | nil =>
      constructor
      · nofun
      · intro h
        obtain ⟨_, ⟨_, _, _, _⟩, empty⟩ := h
        cases empty
  | cons q s =>
      simp only [literal?, Option.ite_none_right_eq_some, Option.bind_eq_bind,
        Option.bind_eq_some_iff, Prod.exists, Text.run?_eq_some_iff, Text.after?_eq_some_iff]
      constructor
      · intro h
        obtain ⟨hq, group, _, ⟨ng, ig, _, rfl⟩, _, rfl, artifact, _, ⟨na, ia, _, rfl⟩, _, rfl,
          version, _, ⟨nv, iv, _, rfl⟩, _, rfl, same⟩ := h
        cases same
        have name {t : List Char} (nt : t ≠ []) (it : ∀ c ∈ t, isNameChar c = true) :
            IsName (String.ofList t) := isName_iff.2 (by simpa using ⟨nt, it⟩)
        refine ⟨_, .quoted (isQuote_iff.1 hq) (name ng ig) (name na ia)
          (isVersion_iff.2 (by simpa using ⟨nv, iv⟩)), ?_⟩
        simp [Coordinate.text]
      · intro h
        obtain ⟨_, ⟨hq, group, artifact, version⟩, split⟩ := h
        obtain ⟨rfl, rfl⟩ := List.cons.inj split
        obtain ⟨ng, ig⟩ := isName_iff.1 group
        obtain ⟨na, ia⟩ := isName_iff.1 artifact
        obtain ⟨nv, iv⟩ := isVersion_iff.1 version
        have closing : isVersionChar q = false := by simp [isVersionChar, isQuote_iff.2 hq]
        refine ⟨isQuote_iff.2 hq, _,
          ':' :: (c.artifact.toList ++ ':' :: (c.version.toList ++ q :: r)),
          ⟨ng, ig, by simp [isNameChar], by simp [Coordinate.text]⟩, _, rfl,
          _, ':' :: (c.version.toList ++ q :: r), ⟨na, ia, by simp [isNameChar], rfl⟩, _, rfl,
          _, q :: r, ⟨nv, iv, by simpa using closing, rfl⟩, _, rfl, by simp⟩

theorem exists_gap (s : List Char) : ∃ gap, Gap gap ∧ s = gap ++ opened s := by
  obtain ⟨before, hbefore, split⟩ := Text.exists_trimLeft s
  rw [opened]
  split
  case h_1 r trimmed =>
    obtain ⟨after, hafter, rest⟩ := Text.exists_trimLeft r
    refine ⟨before ++ '(' :: after, .parenthesis hbefore hafter, ?_⟩
    rw [split, trimmed, List.append_assoc, List.cons_append, ← rest]
  case h_2 => exact ⟨before, .blank hbefore, split⟩

theorem opened_eq {gap s : List Char} (h : Gap gap) {q : Char} (hq : q = '\'' ∨ q = '"') :
    opened (gap ++ q :: s) = q :: s := by
  have stops : ∀ c ∈ (q :: s).head?, Text.isBlank c = false := by
    intro d hd
    cases hd
    obtain rfl | rfl := hq <;> decide
  cases h with
  | blank hs =>
      rw [opened, Text.trimLeft_append hs stops]
      obtain rfl | rfl := hq <;> rfl
  | @parenthesis before after hbefore hafter =>
      have inner : Text.trimLeft (after ++ q :: s) = q :: s := Text.trimLeft_append hafter stops
      have outer : Text.trimLeft (before ++ '(' :: (after ++ q :: s)) = '(' :: (after ++ q :: s) :=
        Text.trimLeft_append hbefore (by intro d hd; cases hd; decide)
      rw [opened, List.append_assoc, List.cons_append, outer]
      exact inner

end Literals

section Occurrences

theorem literal?_opened_iff {s r : List Char} {c : Coordinate} :
    literal? (opened s) = some (c, r) ↔
      ∃ gap literal, Gap gap ∧ Literal c literal ∧ s = gap ++ literal ++ r := by
  constructor
  · intro h
    obtain ⟨gap, hgap, split⟩ := exists_gap s
    obtain ⟨literal, hliteral, opens⟩ := literal?_eq_some_iff.1 h
    exact ⟨gap, literal, hgap, hliteral, by rw [List.append_assoc, ← opens, ← split]⟩
  · intro h
    obtain ⟨gap, _, hgap, ⟨hq, group, artifact, version⟩, rfl⟩ := h
    rw [List.append_assoc, List.cons_append, List.cons_append, opened_eq hgap hq]
    exact literal?_eq_some_iff.2 ⟨_, .quoted hq group artifact version, rfl⟩

/-- What follows a keyword does not go on with a letter. -/
theorem not_isAlpha_of_head {gap literal r : List Char} {c : Coordinate} (hgap : Gap gap)
    (hliteral : Literal c literal) : ∀ d ∈ (gap ++ literal ++ r).head?, d.isAlpha = false := by
  obtain ⟨hq, _, _, _⟩ := hliteral
  have quote : ∀ q, q = '\'' ∨ q = '"' → q.isAlpha = false := by
    intro q hq
    obtain rfl | rfl := hq <;> decide
  intro d hd
  cases hgap with
  | blank hs =>
      cases gap with
      | nil => cases hd; exact quote _ hq
      | cons e gap => cases hd; exact Text.not_isAlpha_of_isBlank (hs _ List.mem_cons_self)
  | @parenthesis before after hs _ =>
      cases before with
      | nil => cases hd; decide
      | cons e before => cases hd; exact Text.not_isAlpha_of_isBlank (hs _ List.mem_cons_self)

/-- A text starts with one declaration of a family at most: the keyword is all the
letters in front. -/
theorem Written.unique {family : Kind} {c d : Coordinate} {text other r t : List Char}
    (h : Written family c text) (h' : Written family d other) (same : text ++ r = other ++ t) :
    (c, r) = (d, t) := by
  obtain ⟨hkeyword, hgap, hliteral⟩ := h
  obtain ⟨hkeyword', hgap', hliteral'⟩ := h'
  have first := Text.takeWhile_dropWhile_iff.2
    ⟨isAlpha_of_mem_keyword hkeyword, not_isAlpha_of_head (r := r) hgap hliteral, rfl⟩
  have second := Text.takeWhile_dropWhile_iff.2
    ⟨isAlpha_of_mem_keyword hkeyword', not_isAlpha_of_head (r := t) hgap' hliteral', rfl⟩
  simp only [List.append_assoc] at same first second
  rw [same] at first
  have rest := first.2.symm.trans second.2
  have read := (literal?_opened_iff (r := r)).2 ⟨_, _, hgap, hliteral, rfl⟩
  have read' := (literal?_opened_iff (r := t)).2 ⟨_, _, hgap', hliteral', rfl⟩
  simp only [List.append_assoc, rest] at read read'
  exact Option.some.inj (read.symm.trans read')

theorem occurrence?_eq_some_iff {family : Kind} {s r : List Char} {c : Coordinate} :
    occurrence? family s = some (c, r) ↔ ∃ text, Written family c text ∧ s = text ++ r := by
  have written {d : Coordinate} {t : List Char} (h : occurrence? family s = some (d, t)) :
      ∃ text, Written family d text ∧ s = text ++ t := by
    obtain ⟨keyword, member, read⟩ := List.exists_of_findSome?_eq_some h
    obtain ⟨rest, after, read⟩ := Option.bind_eq_some_iff.1 read
    obtain ⟨gap, literal, hgap, hliteral, rfl⟩ := literal?_opened_iff.1 read
    refine ⟨_, .declared (mem_keywords.1 member) hgap hliteral, ?_⟩
    rw [Text.after?_eq_some_iff.1 after, List.append_assoc, List.append_assoc, List.append_assoc]
  refine ⟨written, ?_⟩
  intro h
  obtain ⟨text, htext, split⟩ := h
  cases h : occurrence? family s with
  | some result =>
      obtain ⟨other, hother, split'⟩ := written h
      rw [htext.unique hother (split.symm.trans split')]
  | none =>
      obtain ⟨hkeyword, hgap, hliteral⟩ := htext
      have unread := List.findSome?_eq_none_iff.1 h _ (mem_keywords.2 hkeyword)
      rw [split, List.append_assoc, List.append_assoc, Text.after?_eq_some_iff.2 rfl,
        Option.bind_some] at unread
      have read := (literal?_opened_iff (r := r)).2 ⟨_, _, hgap, hliteral, rfl⟩
      rw [List.append_assoc] at read
      cases unread.symm.trans read

theorem isBoundary_iff {p : Option Char} :
    isBoundary p = true ↔ ∀ c, p = some c → Text.isWord c = false ∧ c ≠ '.' := by
  cases p <;> simp [isBoundary]

theorem occurrenceBehind?_eq_some_iff {family : Kind} {p : Option Char} {s r : List Char}
    {c : Coordinate} :
    occurrenceBehind? family p s = some (c, r) ↔
      (∀ c, p = some c → Text.isWord c = false ∧ c ≠ '.') ∧
        ∃ text, Written family c text ∧ s = text ++ r := by
  rw [← isBoundary_iff, ← occurrence?_eq_some_iff, occurrenceBehind?]
  exact Option.ite_none_right_eq_some

theorem consumes_occurrenceBehind? (family : Kind) :
    Text.Consumes (occurrenceBehind? family) := by
  intro p s c r h
  obtain ⟨_, text, htext, split⟩ := occurrenceBehind?_eq_some_iff.1 h
  refine ⟨text, ?_, split⟩
  obtain ⟨_, _, ⟨_, _, _, _⟩⟩ := htext
  simp

theorem foundAt_iff_declaredIn {family : Kind} {line : List Char} {x : Text.Span Coordinate} :
    Text.FoundAt (occurrenceBehind? family) line x ↔ DeclaredIn family line x := by
  refine exists₃_congr fun before text after => and_congr_right fun _ => and_congr_right fun _ =>
    and_congr_right fun _ => ?_
  rw [occurrenceBehind?_eq_some_iff]
  refine and_congr_right fun _ => ⟨?_, fun written => ⟨text, written, rfl⟩⟩
  intro h
  obtain ⟨other, written, same⟩ := h
  exact List.append_cancel_right same ▸ written

theorem exists_leftmost_occurrences (family : Kind) (line : List Char) :
    ∃ spans, occurrences family line = spans.map (·.value) ∧
      Text.Leftmost (DeclaredIn family line) spans := by
  obtain ⟨spans, values, leftmost⟩ :=
    Text.exists_leftmost_scan (consumes_occurrenceBehind? family) line
  exact ⟨spans, values, leftmost.congr fun _ => foundAt_iff_declaredIn⟩

theorem leftmost_declaredIn_unique {family : Kind} {line : List Char}
    {spans others : List (Text.Span Coordinate)} (h : Text.Leftmost (DeclaredIn family line) spans)
    (h' : Text.Leftmost (DeclaredIn family line) others) : others = spans := by
  have found {x : Text.Span Coordinate} (hx : DeclaredIn family line x) :=
    foundAt_iff_declaredIn.2 hx
  refine h.unique (fun x hx => ?_) (fun x y hx hy start => ?_) h'
  · exact (found hx).ordered (consumes_occurrenceBehind? family)
  · exact (found hx).determined (found hy) start

end Occurrences

theorem exists_written_of_mem_onLine {number : Int} {line : List Char}
    {found : Kind × Declaration} (h : found ∈ Declaration.onLine number line) :
    found.2.kind = Kind.ofLine line ∧
      ∃ text, text <:+: line ∧ Written found.1 found.2.coordinate text := by
  obtain ⟨family, _, h⟩ := List.mem_flatMap.1 h
  obtain ⟨c, hc, rfl⟩ := List.mem_map.1 h
  obtain ⟨spans, values, leftmost⟩ := exists_leftmost_occurrences family line
  rw [values] at hc
  obtain ⟨x, hx, rfl⟩ := List.mem_map.1 hc
  obtain ⟨before, text, after, split, _, _, _, written⟩ := leftmost.sound x hx
  exact ⟨rfl, text, ⟨before, after, split.symm⟩, written⟩

/-- A line declares, for each family in turn, what the leftmost choice of its written
declarations declares; no other choice is leftmost. -/
theorem Declaration.onLine_leftmost (number : Int) (line : String) :
    ∃ spans : Kind → List (Text.Span Coordinate),
      (Declaration.onLine number line.toList).map (fun found => (found.1, found.2.coordinate)) =
        [.implementation, .api, .test, .debug, .annotationProcessor].flatMap
          (fun family => (spans family).map fun x => (family, x.value)) ∧
      ∀ family, Text.Leftmost (DeclaredIn family line.toList) (spans family) ∧
        ∀ others, Text.Leftmost (DeclaredIn family line.toList) others → others = spans family := by
  obtain ⟨spans, hspans⟩ :=
    Classical.skolem.1 fun family => exists_leftmost_occurrences family line.toList
  refine ⟨spans, ?_, fun family => ⟨(hspans family).2, fun others hothers => ?_⟩⟩
  · simp only [Declaration.onLine, List.map_flatMap, List.map_map, (hspans _).1]
    rfl
  · exact leftmost_declaredIn_unique (hspans family).2 hothers

end DependencyAudit
