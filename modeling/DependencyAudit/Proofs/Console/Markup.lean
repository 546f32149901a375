import DependencyAudit.Console.Markup
import DependencyAudit.Proofs.Console.Emoji
import DependencyAudit.Proofs.Results
import Mathlib.Data.List.Infix
import Mathlib.Data.List.TakeWhile

/-!
What console markup leaves of a text. Of a tag nothing is shown, and of a backslash that keeps a
bracket as text the bracket alone; what else is shown stands in the text in the same order. No
code of an emoji comes about in this way. So a text without such codes is shown as it is exactly if
there is no tag in it, no backslash before a bracket and no character that moves the cursor back,
and any other text without them is shown shorter or refused.
-/
namespace DependencyAudit.Console.Markup

/-- A tag as a whole, with its brackets. -/
def IsTag (s : List Char) : Prop :=
  ∃ c inside, s = '[' :: c :: inside ++ [']'] ∧ startsTag c = true ∧
    ∀ x ∈ inside, x ≠ ']' ∧ x ≠ '['

/-- A text in which nothing is read as markup, and nothing moves the cursor back. -/
structure Unmarked (s : List Char) : Prop where
  noTag : ∀ t, t <:+: s → ¬ IsTag t
  noEscape : ¬ ['\\', '['] <:+: s
  stays : ∀ c ∈ s, movesBack c = false

section Tags
variable {s t inside : List Char}

theorem Unmarked.of_infix (h : Unmarked s) (within : t <:+: s) : Unmarked t where
  noTag tag place := h.noTag tag (place.trans within)
  noEscape place := h.noEscape (place.trans within)
  stays c member := h.stays c (within.subset member)

/-- A text without brackets and backslashes. -/
theorem unmarked_of_forall (h : ∀ c ∈ s, c ≠ '[' ∧ c ≠ '\\' ∧ movesBack c = false) :
    Unmarked s where
  noTag := by
    rintro _ place ⟨c, inside, rfl, -⟩
    exact (h '[' (place.subset List.mem_cons_self)).1 rfl
  noEscape place := (h '\\' (place.subset List.mem_cons_self)).2.1 rfl
  stays c member := (h c member).2.2

theorem exists_of_tag? (h : tag? s = some inside) :
    ∃ rest, s = '[' :: inside ++ ']' :: rest ∧ IsTag ('[' :: inside ++ [']']) := by
  unfold tag? at h
  split at h
  case h_2 => cases h
  case h_1 c s =>
    dsimp only at h
    split at h
    case isFalse => cases h
    case isTrue closed =>
      cases h
      obtain ⟨starts, closed⟩ := Bool.and_eq_true_iff.1 closed
      have closed := of_decide_eq_true closed
      have whole : s.takeWhile (fun x => x ≠ ']' && x ≠ '[') ++
          s.drop (s.takeWhile fun x => x ≠ ']' && x ≠ '[').length = s := by
        rw [← List.prefix_iff_eq_append]
        exact List.takeWhile_prefix _
      obtain ⟨rest, behind⟩ := List.head?_eq_some_iff.1 closed
      refine ⟨rest, ?_, c, _, rfl, starts, fun x member => ?_⟩
      · rw [List.cons_append, List.cons_append, ← behind, whole]
      · simpa using List.mem_takeWhile_imp member

theorem tag?_isSome_of_isTag (h : IsTag t) (rest : List Char) : (tag? (t ++ rest)).isSome := by
  obtain ⟨c, inside, rfl, starts, plain⟩ := h
  have taken : (inside ++ ']' :: rest).takeWhile (fun x => x ≠ ']' && x ≠ '[') = inside := by
    rw [List.takeWhile_append_of_pos fun x member => by simpa using plain x member]
    simp
  have shape : '[' :: c :: inside ++ [']'] ++ rest = '[' :: c :: (inside ++ ']' :: rest) := by simp
  rw [shape, tag?, taken, if_pos]
  · rfl
  · simp [starts]

/-- No tag starts anywhere. -/
def Tagless (s : List Char) : Prop := ∀ t, t <:+ s → tag? t = none

theorem tagless_iff : Tagless s ↔ ∀ t, t <:+: s → ¬ IsTag t := by
  constructor
  · rintro tagless t ⟨before, after, rfl⟩ tag
    have found := tag?_isSome_of_isTag tag after
    rw [tagless (t ++ after) ⟨before, (List.append_assoc ..).symm⟩] at found
    cases found
  · intro tagless t behind
    cases found : tag? t with
    | none => rfl
    | some inside =>
        obtain ⟨rest, rfl, tag⟩ := exists_of_tag? found
        refine absurd tag (tagless _ (List.IsInfix.trans ?_ behind.isInfix))
        exact ⟨[], rest, by simp⟩

end Tags

section Escapes
variable {s : List Char}

theorem unescaped_sublist (s : List Char) : (unescaped s).Sublist s := by
  fun_induction unescaped s with
  | case1 => exact .slnil
  | case2 s ih => exact (ih.cons_cons '[').cons '\\'
  | case3 c s _ ih => exact ih.cons_cons c

theorem unescaped_eq_self (h : ¬ ['\\', '['] <:+: s) : unescaped s = s := by
  fun_induction unescaped s with
  | case1 => rfl
  | case2 s _ => exact absurd ⟨[], s, rfl⟩ h
  | case3 c s _ ih => rw [ih fun within => h (within.trans (List.suffix_cons c s).isInfix)]

theorem length_unescaped_lt (h : ['\\', '['] <:+: s) : (unescaped s).length < s.length := by
  fun_induction unescaped s with
  | case1 => cases List.infix_nil.1 h
  | case2 s _ =>
      have fewer := (unescaped_sublist s).length_le
      simp only [List.length_cons]
      omega
  | case3 c s other ih =>
      obtain here | later := List.infix_cons_iff.1 h
      · obtain ⟨rest, same⟩ := here
        cases same
        exact absurd rfl (other rest rfl)
      · have fewer := ih later
        simp only [List.length_cons]
        omega

end Escapes

section Parts
variable {s t plain : List Char} {position skip : Nat}

def Part.text? : Part → Option (List Char)
  | .text s => some s
  | .tag _ _ => none

/-- What parts show, if none of their tags is refused. -/
def content (parts : List Part) : List Char := (parts.filterMap Part.text?).flatten

theorem textsOf_eq {opened : List Open} {parts : List Part} {texts : List (List Char)}
    (h : textsOf opened parts = .ok texts) : texts = parts.filterMap Part.text? := by
  induction parts generalizing opened texts with
  | nil =>
      cases h
      rfl
  | cons part parts ih =>
      cases part with
      | text s =>
          obtain ⟨rest, read, rfl⟩ := map_eq_ok_iff.1 h
          rw [ih read]
          rfl
      | tag inside position =>
          obtain ⟨_, -, h⟩ := bind_eq_ok_iff.1 h
          obtain ⟨rest, read, h⟩ := bind_eq_ok_iff.1 h
          obtain ⟨_, -, h⟩ := bind_eq_ok_iff.1 h
          cases h
          exact ih read

theorem content_append (before after : List Part) :
    content (before ++ after) = content before ++ content after := by
  simp [content]

theorem content_flush (plain : List Char) : content (flush plain) = unescaped plain.reverse := by
  cases plain with
  | nil => rfl
  | cons c plain => simp [flush, content, Part.text?]

theorem exists_textsOf_flush (opened : List Open) (plain : List Char) :
    ∃ texts, textsOf opened (flush plain) = .ok texts := by
  cases plain with
  | nil => exact ⟨_, rfl⟩
  | cons c plain => exact ⟨_, rfl⟩

/-- Of backslashes and a tag behind them no more is shown than half the backslashes, or the tag
with one of them less. -/
theorem content_escapedTag (position slashes : Nat) (inside : List Char) :
    (content (escapedTag position slashes inside)).Sublist
        (List.replicate slashes '\\' ++ ('[' :: inside ++ [']'])) ∧
      (content (escapedTag position slashes inside)).length < slashes + (inside.length + 2) := by
  have half : slashes / 2 ≤ slashes := Nat.div_le_self slashes 2
  have kept : content (escapedTag position slashes inside) = List.replicate (slashes / 2) '\\' ++
      if slashes % 2 = 1 then '[' :: inside ++ [']'] else [] := by
    rw [escapedTag, content_append]
    congr 1
    · split
      case isTrue nothing =>
        rw [nothing]
        rfl
      case isFalse => simp [content, Part.text?]
    · split <;> simp [content, Part.text?]
  rw [kept]
  constructor
  · refine (List.replicate_sublist_replicate _ |>.2 half).append ?_
    split
    · exact List.Sublist.refl _
    · exact List.nil_sublist _
  · rw [List.length_append, List.length_replicate]
    split
    case isTrue odd =>
      simp only [List.length_append, List.length_cons, List.length_nil]
      omega
    case isFalse =>
      rw [List.length_nil]
      omega

/-- Where a tag is found behind backslashes, both stand at the front. -/
theorem eq_of_tag?_drop {c : Char} {inside : List Char}
    (h : tag? ((c :: s).drop ((c :: s).takeWhile (· = '\\')).length) = some inside) :
    c :: s = List.replicate ((c :: s).takeWhile (· = '\\')).length '\\' ++
      ('[' :: inside ++ [']']) ++
        s.drop (((c :: s).takeWhile (· = '\\')).length + inside.length + 1) := by
  obtain ⟨rest, behind, -⟩ := exists_of_tag? h
  have slashes : (c :: s).takeWhile (· = '\\') =
      List.replicate ((c :: s).takeWhile (· = '\\')).length '\\' :=
    List.eq_replicate_iff.2 ⟨rfl, fun x member => by simpa using List.mem_takeWhile_imp member⟩
  have whole : (c :: s).takeWhile (· = '\\') ++
      (c :: s).drop ((c :: s).takeWhile (· = '\\')).length = c :: s := by
    rw [← List.prefix_iff_eq_append]
    exact List.takeWhile_prefix _
  rw [behind, slashes] at whole
  generalize ((c :: s).takeWhile (· = '\\')).length = n at whole ⊢
  have whole : List.replicate n '\\' ++ ('[' :: inside ++ [']']) ++ rest = c :: s := by
    rw [← whole]
    simp
  have later : s.drop (n + inside.length + 1) = rest := by
    rw [← List.drop_succ_cons (a := c), ← whole]
    refine List.drop_left' ?_
    simp only [List.length_append, List.length_replicate, List.length_cons, List.length_nil]
    omega
  rw [later, whole]

/-- What is shown stands in the text, in the same order. -/
theorem content_partsFrom (position : Nat) (plain : List Char) (skip : Nat) (s : List Char) :
    (content (partsFrom position plain skip s)).Sublist (plain.reverse ++ s.drop skip) := by
  induction s generalizing position plain skip with
  | nil =>
      rw [partsFrom, content_flush, List.drop_nil, List.append_nil]
      exact unescaped_sublist _
  | cons c s ih =>
      cases skip with
      | succ skip => exact ih _ _ _
      | zero =>
          rw [partsFrom]
          split
          case h_1 inside found =>
            rw [content_append, content_append, content_flush, List.append_assoc, List.drop_zero]
            refine (unescaped_sublist _).append ?_
            conv_rhs => rw [eq_of_tag?_drop found]
            exact (content_escapedTag _ _ _).1.append (ih _ [] _)
          case h_2 =>
            have rest := ih (position + 1) (c :: plain) 0
            rwa [List.reverse_cons, List.append_assoc] at rest

/-- A tag, or the backslash that keeps one, is not shown. -/
theorem length_content_partsFrom_lt (tagged : ¬ Tagless s) (position : Nat) (plain : List Char) :
    (content (partsFrom position plain 0 s)).length < plain.length + s.length := by
  induction s generalizing position plain with
  | nil =>
      refine absurd (fun t behind => ?_) tagged
      rw [List.suffix_nil.1 behind]
      rfl
  | cons c s ih =>
      rw [partsFrom]
      split
      case h_1 inside found =>
        have before := (unescaped_sublist plain.reverse).length_le
        have tag := (content_escapedTag position ((c :: s).takeWhile (· = '\\')).length inside).2
        have behind := (content_partsFrom (position + 1) []
          (((c :: s).takeWhile (· = '\\')).length + inside.length + 1) s).length_le
        have whole := congrArg List.length (eq_of_tag?_drop found)
        simp only [content_append, content_flush, List.length_append, List.length_reverse,
          List.length_replicate, List.length_cons, List.length_nil, List.reverse_nil,
          List.nil_append] at *
        omega
      case h_2 untagged =>
        have later : ¬ Tagless s := by
          refine fun free => tagged fun t behind => ?_
          obtain rfl | behind := List.suffix_cons_iff.1 behind
          · by_cases slash : c = '\\'
            · rw [slash]
              rfl
            · rwa [List.takeWhile_cons_of_neg (by simpa using slash)] at untagged
          · exact free t behind
        have fewer := ih later (position + 1) (c :: plain)
        simp only [List.length_cons] at fewer ⊢
        omega

theorem partsFrom_of_tagless (free : Tagless s) (position : Nat) (plain : List Char) :
    partsFrom position plain 0 s = flush (s.reverse ++ plain) := by
  induction s generalizing position plain with
  | nil => rfl
  | cons c s ih =>
      rw [partsFrom, free _ (List.drop_suffix _ _)]
      have rest := ih (fun t behind => free t (behind.trans (List.suffix_cons c s)))
        (position + 1) (c :: plain)
      rwa [List.reverse_cons, List.append_assoc]

end Parts

/-- A text whose markup can be shown. -/
def Accepted (s : String) : Prop := ∃ pieces, texts s = .ok pieces

instance : DecidablePred Accepted := fun s =>
  match h : texts s with
  | .ok pieces => .isTrue ⟨pieces, h⟩
  | .error _ => .isFalse fun ⟨_, same⟩ => by cases h.symm.trans same

section Free
variable {emoji : Emoji} {s t plain inside : List Char} {position slashes : Nat}

theorem prefix_of_prefix_unescaped (h : t <+: unescaped s) (bare : '[' ∉ t) : t <+: s := by
  fun_induction unescaped s generalizing t with
  | case1 => exact h
  | case2 s _ =>
      obtain rfl | ⟨_, rfl, -⟩ := List.prefix_cons_iff.1 h
      · exact List.nil_prefix
      · exact absurd List.mem_cons_self bare
  | case3 c s _ ih =>
      obtain rfl | ⟨rest, rfl, front⟩ := List.prefix_cons_iff.1 h
      · exact List.nil_prefix
      · exact List.prefix_cons_inj c |>.2 (ih front fun member => bare (List.mem_cons_of_mem c member))

/-- What has no bracket in it stands in the text as it is shown only if it stands in the text. -/
theorem infix_of_infix_unescaped (h : t <:+: unescaped s) (bare : '[' ∉ t) : t <:+: s := by
  fun_induction unescaped s with
  | case1 => exact h
  | case2 s ih =>
      obtain front | later := List.infix_cons_iff.1 h
      · obtain rfl | ⟨_, rfl, -⟩ := List.prefix_cons_iff.1 front
        · exact List.nil_infix
        · exact absurd List.mem_cons_self bare
      · exact List.infix_cons (List.infix_cons (ih later))
  | case3 c s other ih =>
      obtain front | later := List.infix_cons_iff.1 h
      · refine (prefix_of_prefix_unescaped ?_ bare).isInfix
        rwa [unescaped.eq_3 _ _ other]
      · exact List.infix_cons (ih later)

/-- A backslash that goes leaves a bracket, and no code with a bracket is known. -/
theorem free_unescaped (free : emoji.Free s) : emoji.Free (unescaped s) := by
  intro body place coded
  by_cases bracket : '[' ∈ body
  · exact Emoji.sign?_of_open_mem bracket
  · exact free body (infix_of_infix_unescaped place (by simpa using bracket)) coded

theorem free_of_mem_flush (free : emoji.Free plain.reverse) (member : .text t ∈ flush plain) :
    emoji.Free t := by
  cases plain with
  | nil => cases member
  | cons c plain =>
      cases List.mem_singleton.1 member
      exact free_unescaped free

theorem free_of_mem_escapedTag (free : emoji.Free ('[' :: inside ++ [']']))
    (member : .text t ∈ escapedTag position slashes inside) : emoji.Free t := by
  rw [escapedTag, List.mem_append] at member
  obtain kept | tag := member
  · split at kept
    case isTrue => cases kept
    case isFalse =>
      cases List.mem_singleton.1 kept
      refine Emoji.free_of_not_mem fun colon => ?_
      cases List.eq_of_mem_replicate colon
  · have tag := List.mem_singleton.1 tag
    split at tag <;> cases tag
    exact free

/-- Markup takes codes away, but makes none. -/
theorem free_of_mem_partsFrom {skip : Nat} (free : emoji.Free (plain.reverse ++ s.drop skip))
    (member : .text t ∈ partsFrom position plain skip s) : emoji.Free t := by
  induction s generalizing position plain skip with
  | nil =>
      rw [partsFrom] at member
      exact free_of_mem_flush (free.of_infix List.infix_append_left) member
  | cons c s ih =>
      cases skip with
      | succ skip => exact ih free member
      | zero =>
          rw [List.drop_zero] at free
          rw [partsFrom] at member
          split at member
          case h_1 inside found =>
            rw [List.mem_append, List.mem_append] at member
            rw [eq_of_tag?_drop found] at free
            obtain (front | tag) | behind := member
            · exact free_of_mem_flush (free.of_infix List.infix_append_left) front
            · refine free_of_mem_escapedTag (free.of_infix ?_) tag
              exact List.infix_append_right.trans
                (List.infix_append_left.trans List.infix_append_right)
            · refine ih (free.of_infix ?_) behind
              exact List.infix_append_right.trans List.infix_append_right
          case h_2 => exact ih (by simpa using free) member

end Free

section Plain
variable {emoji : Emoji} {s : String} {t : List Char}

theorem content_of_tagless (free : Tagless s.toList) :
    content (parts s.toList) = unescaped s.toList := by
  rw [parts, partsFrom_of_tagless free, List.append_nil, content_flush, List.reverse_reverse]

theorem accepted_of_plain (h : plain emoji s = .ok t) : Accepted s := by
  obtain ⟨pieces, read, -⟩ := map_eq_ok_iff.1 h
  exact ⟨pieces, read⟩

theorem Accepted.exists_plain (h : Accepted s) (emoji : Emoji) : ∃ t, plain emoji s = .ok t := by
  obtain ⟨pieces, read⟩ := h
  exact ⟨_, map_eq_ok_iff.2 ⟨pieces, read, rfl⟩⟩

/-- Without codes a text shows what stands between its tags, whatever emoji there are. -/
theorem plain_eq (free : emoji.Free s.toList) :
    plain emoji s = (texts s).map fun _ => visible (content (parts s.toList)) := by
  rw [plain]
  cases read : texts s with
  | error f => rfl
  | ok pieces =>
      have same : ∀ piece ∈ pieces, emoji.replaced piece = piece := by
        intro piece member
        rw [textsOf_eq read] at member
        obtain ⟨part, inside, spelled⟩ := List.mem_filterMap.1 member
        cases part with
        | tag _ _ => cases spelled
        | text _ =>
            cases spelled
            exact (free_of_mem_partsFrom free inside).replaced_eq_self
      have whole : pieces.flatMap emoji.replaced = content (parts s.toList) := by
        rw [List.flatMap_congr same, List.flatMap_id', content, textsOf_eq read]
      exact congrArg (Except.ok ∘ visible) whole

theorem eq_of_plain (free : emoji.Free s.toList) (h : plain emoji s = .ok t) :
    t = visible (content (parts s.toList)) := by
  rw [plain_eq free] at h
  obtain ⟨_, -, same⟩ := map_eq_ok_iff.1 h
  exact same.symm

theorem plain_sublist (free : emoji.Free s.toList) (h : plain emoji s = .ok t) :
    t.Sublist s.toList := by
  rw [eq_of_plain free h]
  exact List.filter_sublist.trans (content_partsFrom 0 [] 0 s.toList)

theorem Unmarked.accepted (h : Unmarked s.toList) : Accepted s := by
  rw [Accepted, texts, parts, partsFrom_of_tagless (tagless_iff.2 h.noTag)]
  exact exists_textsOf_flush [] _

theorem plain_of_unmarked (free : emoji.Free s.toList) (h : Unmarked s.toList) :
    plain emoji s = .ok s.toList := by
  obtain ⟨t, shown⟩ := h.accepted.exists_plain emoji
  rw [shown, eq_of_plain free shown, content_of_tagless (tagless_iff.2 h.noTag),
    unescaped_eq_self h.noEscape]
  exact congrArg Except.ok (List.filter_eq_self.2 fun c member => by rw [h.stays c member]; rfl)

/-- What is read as markup, or moves the cursor back, is missing from what is shown. -/
theorem length_plain_lt (free : emoji.Free s.toList) (marked : ¬ Unmarked s.toList)
    (h : plain emoji s = .ok t) : t.length < s.toList.length := by
  rw [eq_of_plain free h]
  have seen : (visible (content (parts s.toList))).length ≤ (content (parts s.toList)).length :=
    List.length_filter_le _ _
  by_cases tagless : Tagless s.toList
  · by_cases escape : ['\\', '['] <:+: s.toList
    · have fewer := length_unescaped_lt escape
      rw [content_of_tagless tagless] at seen ⊢
      omega
    · rw [content_of_tagless tagless, unescaped_eq_self escape]
      refine lt_of_le_of_ne (List.length_filter_le _ _) fun same => marked ?_
      refine ⟨tagless_iff.1 tagless, escape, fun c member => ?_⟩
      have kept := List.filter_eq_self.1 (List.filter_sublist.eq_of_length same) c member
      simpa using kept
  · have fewer := length_content_partsFrom_lt tagless 0 []
    rw [List.length_nil, Nat.zero_add] at fewer
    exact seen.trans_lt fewer

/-- A text without codes is shown as it is exactly if nothing in it is read as markup. -/
theorem plain_eq_iff (free : emoji.Free s.toList) :
    plain emoji s = .ok s.toList ↔ Unmarked s.toList := by
  refine ⟨fun h => ?_, plain_of_unmarked free⟩
  by_contra marked
  exact (length_plain_lt free marked h).false

instance : DecidablePred Unmarked := fun s =>
  decidable_of_iff (plain .empty (String.ofList s) = .ok s)
    (by simpa using plain_eq_iff (s := String.ofList s) (Emoji.free_empty _))

end Plain
end DependencyAudit.Console.Markup
