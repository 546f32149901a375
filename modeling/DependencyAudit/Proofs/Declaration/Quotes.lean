import DependencyAudit.Proofs.Declaration.Kind

/-!
Opening quotes of declarations. What stands in front of a literal can be read backwards in one
way only: a gap holds no letter, a keyword holds nothing else, and it does not stand behind a
word. So an opening quote belongs to one declaration of one family at most, whichever of the
declarations that stand in a line are chosen, and a line has more quotes than declarations.
-/
namespace DependencyAudit
variable {family family' : Kind} {line before gap : List Char} {keyword : String}
  {x y : Text.Span Coordinate}

/-- The place of the quote that opens the literal, the last part of a declaration. -/
def Text.Span.opening (x : Text.Span Coordinate) : Nat := x.stop - (x.value.text.toList.length + 2)

/-- A declaration in a line, part by part. -/
structure Parted (family : Kind) (line : List Char) (x : Text.Span Coordinate)
    (before : List Char) (keyword : String) (gap literal after : List Char) : Prop where
  line : line = (before ++ keyword.toList ++ gap) ++ literal ++ after
  start : x.start = before.length
  opening : x.opening = (before ++ keyword.toList ++ gap).length
  stop : x.stop = x.opening + literal.length
  boundary : ∀ c, before.getLast? = some c → Text.isWord c = false ∧ c ≠ '.'
  keyword : IsKeyword family keyword
  gap : Gap gap
  literal : Literal x.value literal

theorem Literal.length_eq {c : Coordinate} {literal : List Char} (h : Literal c literal) :
    literal.length = c.text.toList.length + 2 := by
  cases h with
  | quoted => simp

theorem DeclaredIn.exists_parts (h : DeclaredIn family line x) :
    ∃ before keyword gap literal after, Parted family line x before keyword gap literal after := by
  obtain ⟨before, text, after, split, start, stop, boundary, written⟩ := h
  cases written with
  | @declared keyword gap literal hkeyword hgap hliteral =>
      have size := hliteral.length_eq
      have opening : x.opening = (before ++ keyword.toList ++ gap).length := by
        rw [Text.Span.opening, stop, ← size]
        simp only [List.length_append]
        omega
      refine ⟨before, keyword, gap, literal, after, ?_, start, opening, ?_, boundary, hkeyword,
        hgap, hliteral⟩
      · simpa using split
      · rw [opening, stop]
        simp only [List.length_append]
        omega

section Keywords

theorem keyword_ne_nil (h : IsKeyword family keyword) : keyword.toList ≠ [] := by
  have each : ∀ family ∈ Kind.all, ∀ k ∈ family.keywords, k.toList ≠ [] := by decide +kernel
  exact each family (by cases family <;> decide) keyword (mem_keywords.2 h)

/-- No two families have a keyword in common. -/
theorem IsKeyword.family_eq (h : IsKeyword family keyword) (h' : IsKeyword family' keyword) :
    family = family' := by
  have each : ∀ family ∈ Kind.all, ∀ family' ∈ Kind.all, ∀ k ∈ family.keywords,
      k ∈ family'.keywords → family = family' := by decide +kernel
  have listed (family : Kind) : family ∈ Kind.all := by cases family <;> decide
  exact each family (listed family) family' (listed family') keyword (mem_keywords.2 h)
    (mem_keywords.2 h')

theorem isWord_of_isAlpha {c : Char} (h : c.isAlpha = true) : Text.isWord c = true :=
  Text.isWord_of_isAlphanum (by simp [Char.isAlphanum, h]) (Kind.toNat_lt_of_isAlpha h)

theorem Gap.not_isAlpha (h : Gap gap) : ∀ c ∈ gap, c.isAlpha = false := by
  intro c hc
  obtain blank | rfl := h.blank_or_parenthesis c hc
  · exact Text.not_isAlpha_of_isBlank blank
  · decide

/-- Backwards from a quote the letters begin with the end of the keyword, and the keyword begins
where the word does. -/
theorem readBack (boundary : ∀ c, before.getLast? = some c → Text.isWord c = false ∧ c ≠ '.')
    (hkeyword : IsKeyword family keyword) (hgap : Gap gap) :
    let letters := (before ++ keyword.toList ++ gap).reverse.dropWhile fun c => !c.isAlpha
    letters.takeWhile Text.isWord = keyword.toList.reverse ∧
      letters.dropWhile Text.isWord = before.reverse := by
  intro letters
  have alpha := isAlpha_of_mem_keyword hkeyword
  have skipped : letters = keyword.toList.reverse ++ before.reverse := by
    refine ((Text.takeWhile_dropWhile_iff (a := gap.reverse)).2 ⟨?_, ?_, by simp⟩).2
    · intro c hc
      simp [hgap.not_isAlpha c (List.mem_reverse.1 hc)]
    · intro c hc
      have nonempty : keyword.toList.reverse ≠ [] := by simpa using keyword_ne_nil hkeyword
      rw [List.head?_append_of_ne_nil _ nonempty] at hc
      simp [alpha c (List.mem_reverse.1 (List.mem_of_head? hc))]
  rw [skipped]
  refine Text.takeWhile_dropWhile_iff.2 ⟨?_, ?_, rfl⟩
  · intro c hc
    exact isWord_of_isAlpha (alpha c (List.mem_reverse.1 hc))
  · intro c hc
    rw [List.head?_reverse] at hc
    exact (boundary c hc).1

/-- An opening quote belongs to one declaration of one family at most. -/
theorem DeclaredIn.unique_opening (hx : DeclaredIn family line x) (hy : DeclaredIn family' line y)
    (same : x.opening = y.opening) : family = family' ∧ x = y := by
  obtain ⟨before, keyword, gap, literal, after, px⟩ := hx.exists_parts
  obtain ⟨before', keyword', gap', literal', after', py⟩ := hy.exists_parts
  have split := px.line.symm.trans py.line
  rw [List.append_assoc, List.append_assoc _ literal'] at split
  have length := px.opening.symm.trans (same.trans py.opening)
  obtain ⟨front, -⟩ := List.append_inj split length
  obtain ⟨first, second⟩ := readBack px.boundary px.keyword px.gap
  obtain ⟨first', second'⟩ := readBack py.boundary py.keyword py.gap
  rw [front] at first second
  have keywords : keyword = keyword' :=
    String.toList_injective (List.reverse_injective (first.symm.trans first'))
  have befores : before = before' := List.reverse_injective (second.symm.trans second')
  obtain rfl := px.keyword.family_eq (keywords ▸ py.keyword)
  refine ⟨rfl, (foundAt_iff_declaredIn.2 hx).determined (foundAt_iff_declaredIn.2 hy) ?_⟩
  rw [px.start, py.start, befores]

end Keywords

section Count

theorem mem_findIdxs {c : Char} (front after : List Char) (h : isQuote c = true) :
    front.length ∈ (front ++ c :: after).findIdxs isQuote := by
  rw [List.mem_findIdxs_iff_exists_getElem_pos]
  exact ⟨by simp, by simpa using h⟩

/-- The places of the two quotes of a declaration. -/
theorem DeclaredIn.quotes (h : DeclaredIn family line x) :
    x.opening + 1 < x.stop ∧ x.opening ∈ line.findIdxs isQuote ∧
      x.stop - 1 ∈ line.findIdxs isQuote := by
  obtain ⟨before, keyword, gap, literal, after, parts⟩ := h.exists_parts
  have split := parts.line
  have stop := parts.stop
  rw [parts.opening] at stop ⊢
  generalize before ++ keyword.toList ++ gap = front at split stop
  cases parts.literal with
  | @quoted q hq =>
      have size : (q :: x.value.text.toList ++ [q]).length = x.value.text.toList.length + 2 := by
        simp
      have closing : x.stop - 1 = (front ++ q :: x.value.text.toList).length := by
        rw [stop, size, List.length_append, List.length_cons]
        omega
      refine ⟨by omega, ?_, ?_⟩
      · rw [split, List.append_assoc]
        exact mem_findIdxs front _ (isQuote_iff.2 hq)
      · rw [closing, split]
        simpa using mem_findIdxs (front ++ q :: x.value.text.toList) after (isQuote_iff.2 hq)

theorem DeclaredIn.drop_opening (h : DeclaredIn family line x) :
    ∃ literal, Literal x.value literal ∧ line.drop x.opening = literal ++ line.drop x.stop := by
  obtain ⟨before, keyword, gap, literal, after, parts⟩ := h.exists_parts
  refine ⟨literal, parts.literal, ?_⟩
  have split := parts.line
  rw [parts.stop, parts.opening]
  generalize before ++ keyword.toList ++ gap = front at split
  rw [split, ← List.length_append, List.drop_left, List.append_assoc, List.drop_left]

/-- The last declaration has its closing quote behind all opening ones. -/
theorem length_lt_countP_isQuote {sites : List (Kind × Text.Span Coordinate)}
    (declared : ∀ s ∈ sites, DeclaredIn s.1 line s.2)
    (distinct : (sites.map (·.2.opening)).Nodup) (nonempty : sites ≠ []) :
    sites.length < line.countP isQuote := by
  have positive : 0 < (sites.map (·.2.opening)).length := by
    simpa using List.length_pos_of_ne_nil nonempty
  obtain ⟨last, hlast, most⟩ := List.mem_map.1 (List.maximum_of_length_pos_mem positive)
  obtain ⟨wide, -, closing⟩ := (declared last hlast).quotes
  have behind : last.2.stop - 1 ∉ sites.map (·.2.opening) := by
    intro again
    have := List.le_maximum_of_length_pos_of_mem again positive
    omega
  have inside : (last.2.stop - 1) :: sites.map (·.2.opening) ⊆ line.findIdxs isQuote := by
    refine List.cons_subset.2 ⟨closing, ?_⟩
    intro o ho
    obtain ⟨s, hs, rfl⟩ := List.mem_map.1 ho
    exact (declared s hs).quotes.2.1
  have shorter := (List.subperm_of_subset (List.nodup_cons.2 ⟨behind, distinct⟩) inside).length_le
  rw [List.length_findIdxs, List.length_cons, List.length_map] at shorter
  exact shorter

end Count

section Choice
variable {spans : Kind → List (Text.Span Coordinate)}

/-- Where the declarations chosen on a line stand, family by family. -/
def sitesOf (spans : Kind → List (Text.Span Coordinate)) : List (Kind × Text.Span Coordinate) :=
  Kind.all.flatMap fun family => (spans family).map (family, ·)

theorem declaredIn_of_mem_sitesOf (leftmost : ∀ family, Text.Leftmost (DeclaredIn family line)
    (spans family)) : ∀ s ∈ sitesOf spans, DeclaredIn s.1 line s.2 := by
  intro s hs
  obtain ⟨family, -, hs⟩ := List.mem_flatMap.1 hs
  obtain ⟨x, hx, rfl⟩ := List.mem_map.1 hs
  exact (leftmost family).sound x hx

theorem nodup_sitesOf (leftmost : ∀ family, Text.Leftmost (DeclaredIn family line)
    (spans family)) : (sitesOf spans).Nodup := by
  refine List.nodup_flatMap.2 ⟨?_, ?_⟩
  · intro family _
    refine List.Nodup.map (fun _ _ same => (Prod.mk.inj same).2) ?_
    refine (leftmost family).apart.imp_of_mem ?_
    rintro x y hx hy apart rfl
    have ordered := (foundAt_iff_declaredIn.2 ((leftmost family).sound x hx)).ordered
      (consumes_occurrenceBehind? family)
    omega
  · refine (show Kind.all.Nodup by decide).imp ?_
    intro family family' other s hs hs'
    obtain ⟨x, -, rfl⟩ := List.mem_map.1 hs
    obtain ⟨y, -, same⟩ := List.mem_map.1 hs'
    exact other (congrArg Prod.fst same).symm

theorem nodup_openings (leftmost : ∀ family, Text.Leftmost (DeclaredIn family line)
    (spans family)) : ((sitesOf spans).map (·.2.opening)).Nodup := by
  have declared := declaredIn_of_mem_sitesOf leftmost
  refine List.Nodup.map_on (fun s hs t ht same => ?_) (nodup_sitesOf leftmost)
  exact Prod.ext_iff.2 ((declared s hs).unique_opening (declared t ht) same)

theorem onLine_eq_sitesOf (number : Int) (line : List Char)
    (values : ∀ family, occurrences family line = (spans family).map (·.value)) :
    (Declaration.onLine number line).map (fun found => (found.1, found.2.coordinate)) =
      (sitesOf spans).map fun s => (s.1, s.2.value) := by
  simp only [Declaration.onLine, sitesOf, List.map_flatMap, List.map_map, values]
  rfl

end Choice

/-- What a line declares, each declaration at its own opening quote: of all that stands in the
line, whether chosen or not, no two declarations have a quote in common that opens a literal, and
there are more quotes than declarations. -/
theorem Declaration.onLine_quotes (number : Int) (line : String) :
    ∃ spans : Kind → List (Text.Span Coordinate),
      (onLine number line.toList).map (fun found => (found.1, found.2.coordinate)) =
        (sitesOf spans).map (fun s => (s.1, s.2.value)) ∧
      (∀ family, Text.Leftmost (DeclaredIn family line.toList) (spans family)) ∧
      (∀ s ∈ sitesOf spans, ∃ literal, Literal s.2.value literal ∧
        line.toList.drop s.2.opening = literal ++ line.toList.drop s.2.stop) ∧
      ((sitesOf spans).map (·.2.opening)).Nodup ∧
      (∀ family family' x y, DeclaredIn family line.toList x → DeclaredIn family' line.toList y →
        x.opening = y.opening → family = family' ∧ x = y) ∧
      (onLine number line.toList ≠ [] →
        (onLine number line.toList).length < line.toList.countP isQuote) := by
  obtain ⟨spans, hspans⟩ :=
    Classical.skolem.1 fun family => exists_leftmost_occurrences family line.toList
  have leftmost family := (hspans family).2
  have same := onLine_eq_sitesOf number line.toList fun family => (hspans family).1
  have declared := declaredIn_of_mem_sitesOf leftmost
  have distinct := nodup_openings leftmost
  refine ⟨spans, same, leftmost, fun s hs => (declared s hs).drop_opening, distinct,
    fun _ _ _ _ hx hy => hx.unique_opening hy, fun nonempty => ?_⟩
  have length := congrArg List.length same
  rw [List.length_map, List.length_map] at length
  rw [length]
  refine length_lt_countP_isQuote declared distinct ?_
  rintro nothing
  rw [nothing] at length
  exact nonempty (List.length_eq_zero_iff.1 length)

/-- The quote that closes one literal opens the next, so there is only one more of them. -/
theorem Declaration.onLine_quotes_of_shared_quote :
    let line := "implementation 'a:b:api'x:y:z'"
    (onLine 1 line.toList).map (·.2.coordinate.text) = ["a:b:api", "x:y:z"] ∧
      line.toList.countP isQuote = 3 ∧
      (onLine 1 line.toList).length < line.toList.countP isQuote := by
  intro line
  have found : (onLine 1 line.toList).map (·.2.coordinate.text) = ["a:b:api", "x:y:z"] := by
    decide +kernel
  have nonempty : onLine 1 line.toList ≠ [] := by
    intro nothing
    rw [nothing] at found
    cases found
  obtain ⟨_, -, -, -, -, -, more⟩ := onLine_quotes 1 line
  exact ⟨found, by decide +kernel, more nonempty⟩

end DependencyAudit
