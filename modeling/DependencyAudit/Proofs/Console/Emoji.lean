import DependencyAudit.Console.Markup
import DependencyAudit.Proofs.Console.Line
import DependencyAudit.Proofs.Text.Lowercase
import DependencyAudit.Proofs.Text.Scan
import Mathlib.Data.List.Infix

/-!
What becomes of a text when emoji are shown in it. Each code that is known costs the text its two
colons, and nothing else touches a colon. So a text stays as it is exactly if none of its codes is
known, whatever names there are, and the console, which only drops characters, brings none back.
-/
namespace DependencyAudit.Console.Emoji
variable {emoji : Emoji} {s t body rest sign : List Char}

section Codes

theorem code?_eq_some_iff :
    code? s = some (body, rest) ↔
      s = ':' :: (body ++ ':' :: rest) ∧ ∀ c ∈ body, isCodeChar c = true := by
  constructor
  · intro h
    unfold code? at h
    split at h
    case h_1 s =>
      split at h
      case h_1 rest behind =>
        cases h
        refine ⟨?_, fun c member => List.mem_takeWhile_imp member⟩
        rw [← behind, List.takeWhile_append_dropWhile]
      case h_2 => cases h
    case h_2 => cases h
  · rintro ⟨rfl, coded⟩
    have ⟨taken, behind⟩ : (body ++ ':' :: rest).takeWhile isCodeChar = body ∧
        (body ++ ':' :: rest).dropWhile isCodeChar = ':' :: rest :=
      Text.takeWhile_dropWhile_iff.2 ⟨coded, by simp [isCodeChar], rfl⟩
    simp only [code?, taken, behind]

theorem colon_not_mem (coded : ∀ c ∈ body, isCodeChar c = true) : ':' ∉ body :=
  fun colon => absurd (coded ':' colon) (by decide)

/-- The codes of a text, known or not, without their colons. -/
def codes (s : List Char) : List (List Char) := Text.scan (fun _ => code?) s

end Codes

section Signs

theorem colon_not_mem_split (body : List Char) : ':' ∉ (split body).2 := by
  unfold split
  split
  case h_1 ending mark found =>
    have marks : ∀ form ∈ forms, ':' ∉ [form.2] := by decide
    exact marks _ (List.mem_of_find?_eq_some found)
  case h_2 => exact List.not_mem_nil

theorem colon_not_mem_sign (h : emoji.sign? body = some sign) : ':' ∉ sign := by
  obtain ⟨text, found, rfl⟩ := Option.map_eq_some_iff.1 h
  obtain ⟨before, after, known, -⟩ := List.lookup_eq_some_iff.1 found
  have member : (_, text) ∈ emoji.signs := known ▸ List.mem_append_right before List.mem_cons_self
  exact List.not_mem_append (emoji.uncoloned _ member) (colon_not_mem_split body)

theorem open_mem_split (h : '[' ∈ body) : '[' ∈ (split body).1 := by
  unfold split
  split
  case h_1 ending mark found =>
    have behind : ending <:+ body :=
      List.isSuffixOf_iff_suffix.1 (List.find?_some (a := (ending, mark)) found)
    obtain ⟨front, rfl⟩ := behind
    have plain : ∀ form ∈ forms, '[' ∉ form.1 := by decide
    have named := (List.mem_append.1 h).resolve_right (plain _ (List.mem_of_find?_eq_some found))
    simpa using named
  case h_2 => exact h

/-- A code with a bracket in it is not known. -/
theorem sign?_of_open_mem (h : '[' ∈ body) : emoji.sign? body = none := by
  have named : '[' ∈ Text.lower (split body).1 := by
    have inside : ['['] <:+: (split body).1 := (List.singleton_infix_iff _ _).2 (open_mem_split h)
    exact (List.singleton_infix_iff _ _).1 (Text.map_toLower_infix_lower (by decide) inside)
  refine Option.map_eq_none_iff.2 (List.lookup_eq_none_iff.2 fun entry known => ?_)
  rw [bne_iff_ne]
  intro same
  exact emoji.unbracketed entry known (by rwa [← same, String.toList_ofList])

end Signs

section Replaced
variable {p : Option Char} {skip : Nat}

theorem drop_code (body rest : List Char) :
    (body ++ ':' :: rest).drop ((body ++ ':' :: rest).length - rest.length) = rest := by
  have size : (body ++ ':' :: rest).length - rest.length = (body ++ [':']).length := by
    simp only [List.length_append, List.length_cons, List.length_nil]
    omega
  rw [size, List.append_cons body ':' rest, List.drop_left]

/-- Two colons are gone for each code that is known. -/
theorem count_replacedFrom (emoji : Emoji) (p : Option Char) (skip : Nat) (s : List Char) :
    (emoji.replacedFrom skip s).count ':' +
        2 * (Text.scanFrom (fun _ => code?) p skip s).countP (fun body => (emoji.sign? body).isSome)
      = (s.drop skip).count ':' := by
  induction s generalizing p skip with
  | nil => simp [replacedFrom, Text.scanFrom]
  | cons c s ih =>
      cases skip with
      | succ skip => exact ih _ skip
      | zero =>
          rw [replacedFrom, Text.scanFrom, List.drop_zero]
          cases found : code? (c :: s) with
          | none =>
              have rest := ih (some c) 0
              simp only [List.count_cons, List.drop_zero] at rest ⊢
              omega
          | some code =>
              obtain ⟨body, rest⟩ := code
              obtain ⟨same, coded⟩ := code?_eq_some_iff.1 found
              obtain ⟨rfl, rfl⟩ := List.cons.inj same
              have later := ih (some ':') ((body ++ ':' :: rest).length - rest.length)
              have inside := List.count_eq_zero.2 (colon_not_mem coded)
              rw [drop_code] at later
              dsimp only
              generalize (body ++ ':' :: rest).length - rest.length = skip at later
              cases known : emoji.sign? body with
              | none =>
                  simp [known, inside]
                  omega
              | some sign =>
                  have gone := List.count_eq_zero.2 (colon_not_mem_sign known)
                  simp [known, inside, gone]
                  omega

/-- A text with no code that is known stays as it is. -/
theorem replacedFrom_eq_drop (p : Option Char) (skip : Nat)
    (unknown : ∀ body ∈ Text.scanFrom (fun _ => code?) p skip s, emoji.sign? body = none) :
    emoji.replacedFrom skip s = s.drop skip := by
  induction s generalizing p skip with
  | nil => simp [replacedFrom]
  | cons c s ih =>
      cases skip with
      | succ skip => exact ih _ skip unknown
      | zero =>
          rw [Text.scanFrom] at unknown
          rw [replacedFrom, List.drop_zero]
          cases found : code? (c :: s) with
          | none =>
              rw [found] at unknown
              rw [ih _ 0 unknown, List.drop_zero]
          | some code =>
              obtain ⟨body, rest⟩ := code
              rw [found] at unknown
              obtain ⟨here, later⟩ := List.forall_mem_cons.1 unknown
              obtain ⟨same, -⟩ := code?_eq_some_iff.1 found
              obtain ⟨rfl, rfl⟩ := List.cons.inj same
              dsimp only
              rw [here, ih _ _ later, drop_code]
              simp

theorem replaced_eq_self (unknown : ∀ body ∈ codes s, emoji.sign? body = none) :
    emoji.replaced s = s :=
  replacedFrom_eq_drop none 0 unknown

/-- With all its colons left, a text had no code that is known. -/
theorem unknown_of_count_le (h : s.count ':' ≤ (emoji.replaced s).count ':') :
    ∀ body ∈ codes s, emoji.sign? body = none := by
  have colons := count_replacedFrom emoji none 0 s
  rw [List.drop_zero] at colons
  change (emoji.replaced s).count ':' +
    2 * (codes s).countP (fun body => (emoji.sign? body).isSome) = _ at colons
  have nothing : (codes s).countP (fun body => (emoji.sign? body).isSome) = 0 := by omega
  intro body member
  simpa using List.countP_eq_zero.1 nothing body member

end Replaced

section Free

/-- No code in a text is known, wherever it stands. -/
def Free (emoji : Emoji) (s : List Char) : Prop :=
  ∀ body, ':' :: body ++ [':'] <:+: s → (∀ c ∈ body, isCodeChar c = true) → emoji.sign? body = none

theorem Free.of_infix (free : emoji.Free s) (within : t <:+: s) : emoji.Free t :=
  fun body place => free body (place.trans within)

theorem free_empty (s : List Char) : Emoji.empty.Free s := fun _ _ _ => rfl

/-- A code takes two colons. -/
theorem free_of_count_le (h : s.count ':' ≤ 1) : emoji.Free s := by
  intro body place
  have two : 2 ≤ (':' :: body ++ [':']).count ':' := by simp
  exact absurd (place.sublist.count_le ':') (by omega)

theorem free_of_not_mem (h : ':' ∉ s) : emoji.Free s :=
  free_of_count_le (List.count_eq_zero.2 h ▸ Nat.zero_le 1)

theorem free_iff :
    emoji.Free s ↔ ∀ t ∈ s.tails, ∀ code ∈ code? t, emoji.sign? code.1 = none := by
  constructor
  · rintro free t behind ⟨body, rest⟩ found
    obtain ⟨rfl, coded⟩ := code?_eq_some_iff.1 found
    refine free body (List.IsInfix.trans ?_ ((List.mem_tails _ _).1 behind).isInfix) coded
    exact ⟨[], rest, by simp⟩
  · rintro free body ⟨before, after, rfl⟩ coded
    refine free _ ((List.mem_tails _ _).2 ⟨before, (List.append_assoc ..).symm⟩) (body, after) ?_
    exact code?_eq_some_iff.2 ⟨by simp, coded⟩

instance (emoji : Emoji) : DecidablePred emoji.Free := fun _ => decidable_of_iff _ free_iff.symm

theorem Free.replaced_eq_self (free : emoji.Free s) : emoji.replaced s = s := by
  refine Emoji.replaced_eq_self fun body member => ?_
  obtain ⟨_, t, rest, behind, found⟩ := Text.exists_found_of_mem_scanFrom member
  exact free_iff.1 free t ((List.mem_tails _ _).2 behind) (body, rest) found

end Free
end Emoji

section Shown
variable {emoji : Emoji} {s : String}

theorem shownText_of_unknown (unknown : ∀ body ∈ Emoji.codes s.toList, emoji.sign? body = none) :
    shownText emoji s = shown s := by
  rw [shownText, Emoji.replaced_eq_self unknown, String.ofList_toList]

/-- A text with room for its lines survives the console exactly if nothing in it is changed on
purpose, and none of its codes is known. -/
theorem alike_shownText_iff (fits : ∀ line ∈ Text.splitAtEach '\n' s.toList, Fits line) :
    Text.Alike (shownText emoji s) s ↔
      (∀ c ∈ s.toList, c ≠ '\t' ∧ movesBack c = false) ∧
        ∀ body ∈ Emoji.codes s.toList, emoji.sign? body = none := by
  constructor
  · intro alike
    have unknown : ∀ body ∈ Emoji.codes s.toList, emoji.sign? body = none := by
      apply Emoji.unknown_of_count_le
      calc s.toList.count ':'
          = (shownText emoji s).toList.count ':' := (alike.count_eq (by decide) (by decide)).symm
        _ ≤ (String.ofList (emoji.replaced s.toList)).toList.count ':' :=
            count_shown_le (by decide) (by decide) (by decide)
        _ = (emoji.replaced s.toList).count ':' := by rw [String.toList_ofList]
    rw [shownText_of_unknown unknown, alike_shown_iff fits] at alike
    exact ⟨alike, unknown⟩
  · rintro ⟨kept, unknown⟩
    rw [shownText_of_unknown unknown]
    exact (alike_shown_iff fits).2 kept

end Shown
end DependencyAudit.Console
