import DependencyAudit.Proofs.Evidence.Token
import DependencyAudit.Proofs.Text.Scan

/-!
Conflicts on a line. A line is read twice, once for tokens and once for conflicts, and each
reading cuts it from left to right on its own. The selected coordinate comes from the conflict;
the requested one is left to the tokens, which miss it where an arrow stands close behind the
version or where a token that starts before reaches into the conflict.
-/
namespace DependencyAudit.Evidence

/-- The text of a token. -/
inductive TokenText : Coordinate → List Char → Prop
  | token {g a v : List Char} (group : IsName g) (artifact : IsName a) (version : IsVersion v) :
      TokenText (coordinate g a v) (g ++ ':' :: a ++ ':' :: v)

/-- The text of a conflict that has the given white space in front of its arrow. -/
inductive ConflictText (gap : List Char) : Coordinate × Coordinate → List Char → Prop
  | conflict {g a v after w : List Char} (group : IsName g) (artifact : IsName a)
      (requested : IsVersion v) (before_arrow : Text.Blank gap) (behind_arrow : Text.Blank after)
      (selected : IsVersion w) :
      ConflictText gap (coordinate g a v, coordinate g a w)
        (g ++ ':' :: a ++ ':' :: v ++ gap ++ '-' :: '>' :: after ++ w)

/-- A text that something is written as stands on a line, and no version goes on behind it. -/
def StandsIn {α : Type} (written : α → List Char → Prop) (line : List Char) (x : Text.Span α) :
    Prop :=
  ∃ before text after, line = before ++ text ++ after ∧ x.start = before.length ∧
    x.stop = before.length + text.length ∧ EndsVersion after ∧ written x.value text

def TokenIn : List Char → Text.Span Coordinate → Prop := StandsIn TokenText

def ConflictIn (gap : List Char) : List Char → Text.Span (Coordinate × Coordinate) → Prop :=
  StandsIn (ConflictText gap)

section Scans
variable {α : Type} {found : List Char → Option (α × List Char)}
  {written : α → List Char → Prop} {line : List Char}

theorem token?_eq_some_iff_text {s r : List Char} {c : Coordinate} :
    token? s = some (c, r) ↔ ∃ text, TokenText c text ∧ EndsVersion r ∧ s = text ++ r := by
  rw [token?_eq_some_iff]
  constructor
  · rintro ⟨g, a, v, hg, ha, hv, ends, rfl, same⟩
    exact ⟨_, .token hg ha hv, ends, same⟩
  · rintro ⟨_, ⟨hg, ha, hv⟩, ends, same⟩
    exact ⟨_, _, _, hg, ha, hv, ends, rfl, same⟩

theorem conflict?_eq_some_iff_text {s r : List Char} {pair : Coordinate × Coordinate} :
    conflict? s = some (pair, r) ↔
      ∃ text, (∃ gap, ConflictText gap pair text) ∧ EndsVersion r ∧ s = text ++ r := by
  obtain ⟨asked, chosen⟩ := pair
  rw [conflict?_eq_some_iff]
  constructor
  · rintro ⟨g, a, v, w, gap, after, hg, ha, hv, hw, hgap, hafter, ends, rfl, rfl, same⟩
    exact ⟨_, ⟨gap, .conflict hg ha hv hgap hafter hw⟩, ends, same⟩
  · rintro ⟨_, ⟨gap, ⟨hg, ha, hv, hgap, hafter, hw⟩⟩, ends, same⟩
    exact ⟨_, _, _, _, gap, _, hg, ha, hv, hw, hgap, hafter, ends, rfl, rfl, same⟩

/-- What a reader finds on a line is what stands there in the form that it reads. -/
theorem foundAt_iff_standsIn
    (reads : ∀ s a r, found s = some (a, r) ↔
      ∃ text, written a text ∧ EndsVersion r ∧ s = text ++ r) {x : Text.Span α} :
    Text.FoundAt (fun _ => found) line x ↔ StandsIn written line x := by
  refine exists₃_congr fun before text after => and_congr_right fun _ => and_congr_right fun _ =>
    and_congr_right fun _ => ?_
  rw [reads]
  constructor
  · rintro ⟨other, form, ends, same⟩
    exact ⟨ends, List.append_cancel_right same ▸ form⟩
  · rintro ⟨ends, form⟩
    exact ⟨text, form, ends, rfl⟩

theorem consumes_token? : Text.Consumes fun _ => token? := by
  intro _ s c r h
  obtain ⟨_, ⟨_, _, _⟩, _, same⟩ := token?_eq_some_iff_text.1 h
  exact ⟨_, by simp, same⟩

theorem consumes_conflict? : Text.Consumes fun _ => conflict? := by
  intro _ s c r h
  obtain ⟨_, ⟨_, ⟨_, _, _, _, _, _⟩⟩, _, same⟩ := conflict?_eq_some_iff_text.1 h
  exact ⟨_, by simp, same⟩

theorem foundAt_iff_tokenIn {x : Text.Span Coordinate} :
    Text.FoundAt (fun _ => token?) line x ↔ TokenIn line x :=
  foundAt_iff_standsIn fun _ _ _ => token?_eq_some_iff_text

theorem foundAt_iff_conflictIn {x : Text.Span (Coordinate × Coordinate)} :
    Text.FoundAt (fun _ => conflict?) line x ↔ ∃ gap, ConflictIn gap line x := by
  rw [foundAt_iff_standsIn fun _ _ _ => conflict?_eq_some_iff_text]
  constructor
  · rintro ⟨before, text, after, split, start, stop, ends, gap, form⟩
    exact ⟨gap, before, text, after, split, start, stop, ends, form⟩
  · rintro ⟨gap, before, text, after, split, start, stop, ends, form⟩
    exact ⟨before, text, after, split, start, stop, ends, gap, form⟩

theorem exists_leftmost_tokens (line : List Char) :
    ∃ tokens, tokensOn line = tokens.map (·.value) ∧ Text.Leftmost (TokenIn line) tokens := by
  obtain ⟨tokens, values, leftmost⟩ := Text.exists_leftmost_scan consumes_token? line
  exact ⟨tokens, values, leftmost.congr fun _ => foundAt_iff_tokenIn⟩

theorem exists_leftmost_conflicts (line : List Char) :
    ∃ conflicts, conflictsOn line = conflicts.map (·.value) ∧
      Text.Leftmost (fun x => ∃ gap, ConflictIn gap line x) conflicts := by
  obtain ⟨conflicts, values, leftmost⟩ := Text.exists_leftmost_scan consumes_conflict? line
  exact ⟨conflicts, values, leftmost.congr fun _ => foundAt_iff_conflictIn⟩

end Scans

section Places
variable {gap line : List Char} {x : Text.Span (Coordinate × Coordinate)}
  {tokens : List (Text.Span Coordinate)} {conflicts : List (Text.Span (Coordinate × Coordinate))}

/-- The coordinate that is read where an arrow stands close behind the version. -/
def hyphened (c : Coordinate) : Coordinate := { c with version := c.version ++ "-" }

theorem hyphened_ne (c : Coordinate) : hyphened c ≠ c := by
  intro same
  have version := congrArg (·.version.toList) same
  simp [hyphened] at version

theorem IsVersion.concat {v : List Char} (h : IsVersion v) : IsVersion (v ++ ['-']) := by
  obtain ⟨_, inside⟩ := isVersion_iff.1 h
  refine isVersion_iff.2 ⟨by simp, ?_⟩
  simpa [or_imp, forall_and] using ⟨inside, by decide⟩

/-- Where a conflict starts, a token stands too. -/
theorem ConflictIn.exists_token (h : ConflictIn gap line x) :
    ∃ stop, TokenIn line
      ⟨x.start, stop, if gap = [] then hyphened x.value.1 else x.value.1⟩ := by
  obtain ⟨start, stop, value⟩ := x
  obtain ⟨before, text, rest, rfl, rfl, -, -, ⟨hg, ha, hv, hgap, -, -⟩⟩ := h
  rename_i g a v after w
  cases gap with
  | nil =>
      have same : hyphened (coordinate g a v) = coordinate g a (v ++ ['-']) := by
        simp [hyphened, coordinate]
      refine ⟨_, before, g ++ ':' :: a ++ ':' :: (v ++ ['-']), '>' :: after ++ w ++ rest,
        by simp, rfl, rfl, ?_, ?_⟩
      · rintro d ⟨⟩
        decide
      · exact same ▸ .token hg ha hv.concat
  | cons d gap =>
      refine ⟨_, before, _, d :: gap ++ '-' :: '>' :: after ++ w ++ rest, by simp, rfl, rfl, ?_,
        .token hg ha hv⟩
      rintro d ⟨⟩
      exact not_isVersionPart_of_isBlank (hgap _ List.mem_cons_self)

/-- A token that is read before a place goes on over it. -/
def Straddled (tokens : List (Text.Span Coordinate)) (place : Nat) : Prop :=
  ∃ y ∈ tokens, y.start < place ∧ place < y.stop

/-- The requested coordinate of a conflict is read where the conflict stands exactly if white
space keeps the arrow apart and no token is cut across the start. -/
theorem ConflictIn.exists_token_iff (h : ConflictIn gap line x)
    (leftmost : Text.Leftmost (TokenIn line) tokens) :
    (∃ y ∈ tokens, y.start = x.start ∧ y.value = x.value.1) ↔
      gap ≠ [] ∧ ¬ Straddled tokens x.start := by
  obtain ⟨stop, stands⟩ := h.exists_token
  have nonempty := (foundAt_iff_tokenIn.2 stands).ordered consumes_token?
  have chosen := leftmost.mem_iff_of_occurs stands nonempty
  have only {y : Text.Span Coordinate} (hy : y ∈ tokens) (start : y.start = x.start) :
      y = ⟨x.start, stop, if gap = [] then hyphened x.value.1 else x.value.1⟩ :=
    (foundAt_iff_tokenIn.2 (leftmost.sound y hy)).determined (foundAt_iff_tokenIn.2 stands) start
  constructor
  · rintro ⟨y, hy, start, value⟩
    obtain rfl := only hy start
    have apart : gap ≠ [] := by
      intro close
      simp only [close, if_true] at value
      exact hyphened_ne _ value
    exact ⟨apart, chosen.1 hy⟩
  · rintro ⟨apart, free⟩
    exact ⟨_, chosen.2 free, rfl, if_neg apart⟩

theorem TokenText.mem {c : Coordinate} {text : List Char} {d : Char} (h : TokenText c text)
    (hd : d ∈ text) : isNamePart d = true ∨ d = ':' ∨ d = '+' := by
  obtain ⟨hg, ha, hv⟩ := h
  simp only [List.mem_append, List.mem_cons] at hd
  obtain (hd | rfl | hd) | rfl | hd := hd
  · exact .inl ((isName_iff.1 hg).2 d hd)
  · exact .inr (.inl rfl)
  · exact .inl ((isName_iff.1 ha).2 d hd)
  · exact .inr (.inl rfl)
  · have part := (isVersion_iff.1 hv).2 d hd
    simp only [isVersionPart, Bool.or_eq_true, beq_iff_eq] at part
    exact part.imp_right .inr

theorem ConflictText.exists_cons {pair : Coordinate × Coordinate} {text : List Char}
    (h : ConflictText gap pair text) : ∃ d rest, text = d :: rest ∧ isNamePart d = true := by
  obtain ⟨hg, _, _, _, _, _⟩ := h
  obtain ⟨nonempty, inside⟩ := isName_iff.1 hg
  obtain ⟨d, g, rfl⟩ := List.exists_cons_of_ne_nil nonempty
  exact ⟨d, _, rfl, inside d List.mem_cons_self⟩

/-- The name that a conflict starts with may go on to the left. -/
theorem ConflictIn.exists_longer (h : ConflictIn gap line x) {front rest : List Char} {d : Char}
    (split : line = front ++ d :: rest) (start : x.start = front.length + 1)
    (name : isNamePart d = true) :
    ∃ longer, ConflictIn gap line ⟨front.length, x.stop, longer⟩ := by
  obtain ⟨before, text, after, split', start', stop, ends, form⟩ := h
  have same : front ++ [d] ++ rest = before ++ (text ++ after) := by
    rw [← List.append_assoc, ← split', split]
    simp
  obtain ⟨rfl, rfl⟩ := List.append_inj same (by simp; omega)
  generalize x.value = pair at form
  obtain ⟨hg, ha, hv, hgap, hafter, hw⟩ := form
  have hd : IsName (d :: _) :=
    isName_iff.2 ⟨List.cons_ne_nil d _, List.forall_mem_cons.2 ⟨name, (isName_iff.1 hg).2⟩⟩
  refine ⟨_, front, _, after, by rw [split']; simp, rfl, ?_, ends,
    .conflict hd ha hv hgap hafter hw⟩
  simp only [stop, List.length_append, List.length_cons, List.length_nil]
  omega

/-- Behind a conflict no version goes on, and so no name of another one starts. -/
theorem ConflictIn.stop_ne_start {other : List Char} {z : Text.Span (Coordinate × Coordinate)}
    (hz : ConflictIn other line z) (hx : ConflictIn gap line x) : z.stop ≠ x.start := by
  intro meets
  obtain ⟨first, text, last, split, start, stop, ends, _⟩ := hz
  obtain ⟨before, text', after, split', start', stop', _, form⟩ := hx
  have same : first ++ text ++ last = before ++ (text' ++ after) := by
    rw [← split, split', List.append_assoc]
  obtain ⟨_, rfl⟩ := List.append_inj same (by rw [List.length_append]; omega)
  obtain ⟨d, rest, rfl, name⟩ := form.exists_cons
  have part := ends d rfl
  rw [isVersionPart, name] at part
  cases part

/-- A chosen conflict does not start in the middle of a name, where it would have been chosen
with the whole name. -/
theorem not_isNamePart_before
    (leftmost : Text.Leftmost (fun x => ∃ gap, ConflictIn gap line x) conflicts)
    (hx : x ∈ conflicts) {front rest : List Char} {d : Char} (split : line = front ++ d :: rest)
    (start : x.start = front.length + 1) : isNamePart d = false := by
  rw [← Bool.not_eq_true]
  intro name
  obtain ⟨gap, stands⟩ := leftmost.sound x hx
  have nonempty := (foundAt_iff_conflictIn.2 ⟨gap, stands⟩).ordered consumes_conflict?
  obtain ⟨longer, earlier⟩ := stands.exists_longer split start name
  obtain chosen | ⟨z, hz, before, astride⟩ := leftmost.complete _ ⟨gap, earlier⟩
  -- The longer one ends where the given one ends, so both are not chosen.
  · obtain same | apart | apart := leftmost.apart_of_mem hx chosen
    · have starts : x.start = front.length := congrArg Text.Span.start same
      omega
    · dsimp only at apart
      omega
    · dsimp only at apart
      omega
  -- What is chosen instead of it ends behind it, but not where the given one starts.
  · obtain ⟨_, stands'⟩ := leftmost.sound z hz
    have meets := stands'.stop_ne_start stands
    dsimp only at before astride
    obtain rfl | apart | apart := leftmost.apart_of_mem hz hx
    · omega
    · omega
    · omega

/-- A token that goes on over the start of a chosen conflict has a colon or a plus sign right
before it. -/
theorem colon_or_plus_before (chosenTokens : Text.Leftmost (TokenIn line) tokens)
    (leftmost : Text.Leftmost (fun x => ∃ gap, ConflictIn gap line x) conflicts)
    (hx : x ∈ conflicts) (astride : Straddled tokens x.start) :
    ∃ front d rest, line = front ++ d :: rest ∧ x.start = front.length + 1 ∧
      (d = ':' ∨ d = '+') := by
  obtain ⟨y, hy, before, behind⟩ := astride
  obtain ⟨first, text, last, split, start, stop, _, form⟩ := chosenTokens.sound y hy
  obtain ⟨n, place⟩ := Nat.exists_eq_add_of_lt before
  have inside : n < text.length := by omega
  have cut : line = first ++ text.take n ++ text[n] :: (text.drop (n + 1) ++ last) := by
    rw [split, ← List.cons_append, ← List.drop_eq_getElem_cons inside, List.append_assoc,
      List.append_assoc, ← List.append_assoc (text.take n), List.take_append_drop]
  have place : x.start = (first ++ text.take n).length + 1 := by
    rw [List.length_append, List.length_take]
    omega
  refine ⟨_, _, _, cut, place, ?_⟩
  have name := not_isNamePart_before leftmost hx cut place
  exact (form.mem (List.getElem_mem inside)).resolve_left (by simp [name])

end Places

/-- What becomes of the conflicts of a line: the choices of tokens and of conflicts that are
read from it, and what of each conflict is recorded. -/
structure Recorded (text line : List Char) (tokens : List (Text.Span Coordinate))
    (conflicts : List (Text.Span (Coordinate × Coordinate))) : Prop where
  tokens_read : tokensOn line = tokens.map (·.value)
  tokens_leftmost : Text.Leftmost (TokenIn line) tokens
  conflicts_read : conflictsOn line = conflicts.map (·.value)
  conflicts_leftmost : Text.Leftmost (fun x => ∃ gap, ConflictIn gap line x) conflicts
  selected : ∀ x ∈ conflicts, x.value.2.text ∈ ofText text
  requested : ∀ x ∈ conflicts, ∀ gap, ConflictIn gap line x → gap ≠ [] →
    ¬ Straddled tokens x.start → x.value.1.text ∈ ofText text
  requested_iff : ∀ x ∈ conflicts, ∀ gap, ConflictIn gap line x →
    ((∃ y ∈ tokens, y.start = x.start ∧ y.value = x.value.1) ↔
      gap ≠ [] ∧ ¬ Straddled tokens x.start)
  straddled : ∀ x ∈ conflicts, Straddled tokens x.start → ∃ front d rest,
    line = front ++ d :: rest ∧ x.start = front.length + 1 ∧ (d = ':' ∨ d = '+')

section Recorded
variable {text line : List Char}

/-- From every conflict on a line the selected coordinate is recorded. The requested one is read
where the conflict stands exactly if white space keeps the arrow apart and no token is cut across
the start, which happens only right behind a colon or a plus sign. -/
theorem conflict_recorded (h : line ∈ Text.splitLines text) :
    ∃ tokens conflicts, Recorded text line tokens conflicts := by
  obtain ⟨tokens, readTokens, chosenTokens⟩ := exists_leftmost_tokens line
  obtain ⟨conflicts, readConflicts, chosenConflicts⟩ := exists_leftmost_conflicts line
  refine ⟨tokens, conflicts, readTokens, chosenTokens, readConflicts, chosenConflicts, ?selected,
    ?requested, ?_, ?_⟩
  case selected =>
    intro x hx
    have member : x.value ∈ conflictsOn line := readConflicts ▸ List.mem_map_of_mem hx
    exact mem_ofText_iff.2 ⟨line, h, x.value.2,
      List.mem_append_right _ (List.mem_map_of_mem member), rfl⟩
  case requested =>
    intro x hx gap stands apart free
    obtain ⟨y, hy, _, same⟩ := (stands.exists_token_iff chosenTokens).2 ⟨apart, free⟩
    have member : y.value ∈ tokensOn line := readTokens ▸ List.mem_map_of_mem hy
    exact mem_ofText_iff.2 ⟨line, h, x.value.1, List.mem_append_left _ (same ▸ member), rfl⟩
  · exact fun x hx gap stands => stands.exists_token_iff chosenTokens
  · exact fun x hx => colon_or_plus_before chosenTokens chosenConflicts hx

/-- A version that was asked for and the one that was selected, on the second of two lines. -/
theorem conflict_recorded_of_tree :
    let line := "+--- a:b:1.0 -> 2.0".toList
    let text := "debug\n+--- a:b:1.0 -> 2.0".toList
    line ∈ Text.splitLines text ∧ "a:b:2.0" ∈ ofText text ∧ "a:b:1.0" ∈ ofText text := by
  intro line text
  have member : line ∈ Text.splitLines text := by decide +kernel
  obtain ⟨tokens, conflicts, recorded⟩ := conflict_recorded member
  have found : (⟨"a", "b", "1.0"⟩, ⟨"a", "b", "2.0"⟩) ∈ conflictsOn line := by decide +kernel
  rw [recorded.conflicts_read] at found
  obtain ⟨x, hx, value⟩ := List.mem_map.1 found
  have asked : x.value.1.text = "a:b:1.0" := congrArg (·.1.text) value
  have chosen : x.value.2.text = "a:b:2.0" := congrArg (·.2.text) value
  obtain ⟨gap, stands⟩ := recorded.conflicts_leftmost.sound x hx
  have here : x.start = 5 := by
    have at_place := foundAt_iff_conflictIn.2 ⟨gap, stands⟩
    have only : ∀ n < line.length, (conflict? (line.drop n)).isSome → n = 5 := by decide +kernel
    exact only _ (at_place.lt_length consumes_conflict?) (by rw [at_place.found_drop]; rfl)
  have apart : gap ≠ [] := by
    rintro rfl
    obtain ⟨stop, token⟩ := stands.exists_token
    have read := (foundAt_iff_tokenIn.2 token).found_drop
    rw [here] at read
    have other : (token? (line.drop 5)).map (·.1) = some ⟨"a", "b", "1.0"⟩ := by decide +kernel
    rw [read] at other
    exact hyphened_ne _ ((Option.some.inj other).trans (congrArg (·.1) value).symm)
  have whole : ¬ Straddled tokens x.start := by
    rintro ⟨y, hy, before, -⟩
    have token := (foundAt_iff_tokenIn.2 (recorded.tokens_leftmost.sound y hy)).found_drop
    have nothing : ∀ n < 5, token? (line.drop n) = none := by decide +kernel
    rw [nothing y.start (here ▸ before)] at token
    cases token
  exact ⟨member, chosen ▸ recorded.selected x hx,
    asked ▸ recorded.requested x hx gap stands apart whole⟩

/-- With an arrow close behind the version, the version is read with the arrow's hyphen. -/
theorem requested_unread_before_close_arrow :
    ∃ pair ∈ conflictsOn "g:a:1.0->2.0".toList,
      "g:a:1.0->2.0".toList ∈ Text.splitLines "g:a:1.0->2.0".toList ∧
        pair.2.text ∈ ofText "g:a:1.0->2.0".toList ∧
        pair.1.text ∉ ofText "g:a:1.0->2.0".toList := by
  decide +kernel

/-- A chain of colons is cut into tokens from its start, and the conflict starts later. -/
example : ofText "x:g:a:1 -> 2".toList = ["x:g:a", "g:a:2"] := by decide +kernel

end Recorded
end DependencyAudit.Evidence
