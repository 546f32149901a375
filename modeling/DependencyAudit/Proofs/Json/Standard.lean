import DependencyAudit.Proofs.Json.Ascii
import DependencyAudit.Proofs.Number.Finite

/-!
Standard JSON. The words for a float that is no number, or is not finite, are no JSON; they are
looked for outside the strings of a text, where a text may hold them as any others. Outside its
strings a document has capital letters in these words only, so what is written of it is standard
exactly if all of its floats are finite.
-/
namespace DependencyAudit

mutual

/-- The floats of a document, in the order in which they are written. -/
def Tree.floats : Tree → List Float
  | .scalar (.float x) => [x]
  | .scalar _ => []
  | .list items => itemFloats items
  | .table fields => fieldFloats fields

def Tree.itemFloats : List Tree → List Float
  | [] => []
  | t :: rest => t.floats ++ itemFloats rest

def Tree.fieldFloats : List (String × Tree) → List Float
  | [] => []
  | (_, t) :: rest => t.floats ++ fieldFloats rest

end

theorem Tree.itemFloats_eq (items : List Tree) :
    itemFloats items = (items.map floats).flatten := by
  induction items with
  | nil => rfl
  | cons t items ih => rw [itemFloats, ih, List.map_cons, List.flatten_cons]

theorem Tree.fieldFloats_eq (fields : Fields) :
    fieldFloats fields = (fields.map (·.2.floats)).flatten := by
  induction fields with
  | nil => rfl
  | cons entry fields ih => rw [fieldFloats, ih, List.map_cons, List.flatten_cons]

theorem Tree.fieldFloats_append (fields more : Fields) :
    fieldFloats (fields ++ more) = fieldFloats fields ++ fieldFloats more := by
  rw [fieldFloats_eq, fieldFloats_eq, fieldFloats_eq, List.map_append, List.flatten_append]

namespace Json

/-- Where a reader of a text is: outside of strings, in one, or behind a backslash in one. -/
inductive Place
  | outer
  | inner
  | escaped
deriving DecidableEq

def Place.next : Place → Char → Place
  | outer, c => if c = '"' then inner else outer
  | inner, c => if c = '"' then outer else if c = '\\' then escaped else inner
  | escaped, _ => inner

/-- What stands outside of strings, with the quotes that open them. -/
def outside : Place → List Char → List Char
  | _, [] => []
  | p, c :: s => if p = .outer then c :: outside (p.next c) s else outside (p.next c) s

/-- Neither of the words that are no JSON stands outside of strings. -/
def Standard (text : List Char) : Prop :=
  ¬ spelling.notANumber.toList <:+: outside .outer text ∧
    ¬ spelling.infinity.toList <:+: outside .outer text

instance (text : List Char) : Decidable (Standard text) :=
  inferInstanceAs (Decidable (¬ _ <:+: _ ∧ ¬ _ <:+: _))

section Places
variable {p : Place} {s t w : List Char} {c : Char}

theorem outside_append (p : Place) (s t : List Char) :
    outside p (s ++ t) = outside p s ++ outside (s.foldl Place.next p) t := by
  induction s generalizing p with
  | nil => rfl
  | cons c s ih =>
      rw [List.cons_append, outside, outside, ih, List.foldl_cons]
      split <;> rfl

/-- Without a quote a text stays outside. -/
theorem outside_of_not_mem (h : '"' ∉ s) :
    s.foldl Place.next .outer = .outer ∧ outside .outer s = s := by
  induction s with
  | nil => exact ⟨rfl, rfl⟩
  | cons c s ih =>
      obtain ⟨here, others⟩ := List.ne_and_not_mem_of_not_mem_cons h
      obtain ⟨place, same⟩ := ih others
      have stays : Place.outer.next c = .outer := if_neg here.symm
      rw [List.foldl_cons, outside, stays, if_pos rfl, same]
      exact ⟨place, rfl⟩

/-- A text that starts and ends in a string, and is in it all the way. -/
structure Inside (s : List Char) : Prop where
  place : s.foldl Place.next .inner = .inner
  nothing : outside .inner s = []

theorem Inside.append (hs : Inside s) (ht : Inside t) : Inside (s ++ t) where
  place := by rw [List.foldl_append, hs.place, ht.place]
  nothing := by rw [outside_append, hs.nothing, hs.place, ht.nothing, List.append_nil]

theorem inside_of_forall_ne (h : ∀ c ∈ s, c ≠ '"' ∧ c ≠ '\\') : Inside s := by
  induction s with
  | nil => exact ⟨rfl, rfl⟩
  | cons c s ih =>
      obtain ⟨⟨quote, backslash⟩, others⟩ := List.forall_mem_cons.1 h
      have stays : Place.inner.next c = .inner := by
        rw [Place.next, if_neg quote, if_neg backslash]
      have rest := ih others
      constructor
      · rw [List.foldl_cons, stays, rest.place]
      · rw [outside, stays, if_neg nofun, rest.nothing]

/-- Whatever stands behind a backslash stays inside. -/
theorem inside_escaped (c : Char) (h : Inside s) : Inside ('\\' :: c :: s) where
  place := h.place
  nothing := h.nothing

theorem inside_unitEscape (n : Nat) : Inside (unitEscape n) := by
  have digits : ∀ c ∈ Nat.toDigits 16 n, c ≠ '"' ∧ c ≠ '\\' :=
    forall_mem_toDigits (by decide) (by decide) n
  refine inside_escaped 'u' (inside_of_forall_ne fun c hc => ?_)
  rw [Utf8.hexDigits, String.toList_ofList, List.mem_append] at hc
  obtain zero | digit := hc
  · rw [List.eq_of_mem_replicate zero]
    decide
  · exact digits c digit

theorem inside_escape (asciiOnly : Bool) (c : Char) : Inside (escape asciiOnly c) := by
  have nil : Inside [] := ⟨rfl, rfl⟩
  unfold escape
  split_ifs with quoted newline carriageReturn tab backspace feed unicode
  any_goals exact inside_escaped _ nil
  · simp only [unicodeEscape]
    split
    · exact inside_unitEscape _
    · exact (inside_unitEscape _).append (inside_unitEscape _)
  · rw [Bool.or_eq_true, beq_iff_eq, beq_iff_eq, not_or] at quoted
    exact inside_of_forall_ne (List.forall_mem_singleton.2 quoted)

/-- A string is closed by its last quote, and of it only the first quote is outside. -/
theorem outside_stringText (asciiOnly : Bool) (s : String) :
    (stringText asciiOnly s).foldl Place.next .outer = .outer ∧
      outside .outer (stringText asciiOnly s) = ['"'] := by
  have body (s : List Char) : Inside (s.flatMap (escape asciiOnly)) := by
    induction s with
    | nil => exact ⟨rfl, rfl⟩
    | cons c s ih => exact (inside_escape asciiOnly c).append ih
  have whole := body s.toList
  constructor
  · rw [stringText, List.foldl_append, List.foldl_cons]
    change ['"'].foldl Place.next (List.foldl Place.next .inner _) = .outer
    rw [whole.place]
    rfl
  · rw [stringText, outside_append]
    change '"' :: outside .inner _ ++ outside (List.foldl Place.next .inner _) ['"'] = _
    rw [whole.nothing, whole.place]
    rfl

end Places

section Words
variable {s t : List Char} {xs ys : List Float} {style : Style}

/-- What is written of some floats, with other texts around them: outside of strings it has the
text of each of them, and capital letters in no other place. -/
structure Writes (s : List Char) (xs : List Float) : Prop where
  place : s.foldl Place.next .outer = .outer
  occurs : ∀ x ∈ xs, floatText spelling x <:+: outside .outer s
  capital : ∀ c ∈ outside .outer s, c.isUpper = true → ∃ x ∈ xs, c ∈ floatText spelling x

namespace Writes

theorem append (hs : Writes s xs) (ht : Writes t ys) : Writes (s ++ t) (xs ++ ys) := by
  have parts : outside .outer (s ++ t) = outside .outer s ++ outside .outer t := by
    rw [outside_append, hs.place]
  constructor
  · rw [List.foldl_append, hs.place, ht.place]
  · rw [parts, List.forall_mem_append]
    refine ⟨fun x hx => ?_, fun x hx => ?_⟩
    · exact (hs.occurs x hx).trans (List.infix_append' [] _ _)
    · exact (ht.occurs x hx).trans (List.suffix_append _ _).isInfix
  · rw [parts, List.forall_mem_append]
    refine ⟨fun c hc upper => ?_, fun c hc upper => ?_⟩
    · obtain ⟨x, hx, inside⟩ := hs.capital c hc upper
      exact ⟨x, List.mem_append_left _ hx, inside⟩
    · obtain ⟨x, hx, inside⟩ := ht.capital c hc upper
      exact ⟨x, List.mem_append_right _ hx, inside⟩

/-- Texts without quotes and capital letters. -/
theorem plain (unquoted : '"' ∉ s) (small : s.any Char.isUpper = false) : Writes s [] := by
  obtain ⟨place, same⟩ := outside_of_not_mem unquoted
  refine ⟨place, nofun, fun c hc upper => ?_⟩
  rw [same] at hc
  exact absurd upper (List.any_eq_false.1 small c hc)

theorem numeral (h : Numeral s) : Writes s [] := by
  have small : numerals.any Char.isUpper = false := by decide
  refine plain (fun quote => absurd (h _ quote) (by decide)) ?_
  exact List.any_eq_false.2 fun c hc => List.any_eq_false.1 small c (h c hc)

theorem string (asciiOnly : Bool) (s : String) : Writes (stringText asciiOnly s) [] := by
  obtain ⟨place, quote⟩ := outside_stringText asciiOnly s
  refine ⟨place, nofun, ?_⟩
  rw [quote]
  intro c hc upper
  rw [List.mem_singleton.1 hc] at upper
  cases upper

theorem float (x : Float) : Writes (floatText spelling x) [x] := by
  have unquoted : '"' ∉ floatText spelling x := by
    cases parts : Parts.of x with
    | notANumber =>
        rw [floatText, parts]
        decide
    | infinite negative =>
        rw [floatText, parts]
        cases negative <;> decide
    | finite negative m q =>
        exact fun quote => absurd (Numeral.finite parts _ quote) (by decide)
  obtain ⟨place, same⟩ := outside_of_not_mem unquoted
  refine ⟨place, ?_, ?_⟩
  · rw [same]
    exact List.forall_mem_singleton.2 List.infix_rfl
  · rw [same]
    exact fun c hc _ => ⟨x, List.mem_singleton_self x, hc⟩

theorem scalar (asciiOnly : Bool) (v : Scalar) :
    Writes (scalarText asciiOnly v) (Tree.scalar v).floats := by
  cases v with
  | null => exact plain (s := "null".toList) (by decide) (by decide)
  | bool b =>
      cases b with
      | true => exact plain (s := "true".toList) (by decide) (by decide)
      | false => exact plain (s := "false".toList) (by decide) (by decide)
  | int n => exact numeral (.integer n)
  | float x => exact float x
  | text s | halved s | bytes _ | date _ | clock _ | moment _ => exact string _ _

theorem lineStart (style : Style) (depth : Nat) : Writes (style.lineStart depth) [] := by
  rw [Style.lineStart]
  split
  case h_1 => exact plain List.not_mem_nil rfl
  case h_2 n _ =>
    have newline : Writes ['\n'] [] := plain (by decide) (by decide)
    refine newline.append (plain (fun quote => ?_) (List.any_eq_false.2 fun c hc => ?_))
    · exact absurd (List.eq_of_mem_replicate quote) (by decide)
    · rw [List.eq_of_mem_replicate hc]
      decide

/-- Entries, each with the floats that are written in it. -/
theorem enclose {depth : Nat} {opening closing : Char} {entries : List (List Char)}
    {written : List (List Float)} (opens : Writes [opening] []) (closes : Writes [closing] [])
    (each : List.Forall₂ Writes entries written) :
    Writes (style.enclose depth opening closing entries) written.flatten := by
  cases each with
  | nil => exact opens.append closes
  | @cons entry xs entries written first others =>
      have comma : Writes [','] [] := plain (by decide) (by decide)
      have start := lineStart style (depth + 1)
      have more : Writes (entries.flatMap fun e => ',' :: style.lineStart (depth + 1) ++ e)
          written.flatten := by
        induction others with
        | nil => exact plain List.not_mem_nil rfl
        | cons next others ih => exact ((comma.append start).append next).append ih
      have front := (opens.append start).append first
      have whole := ((front.append more).append (lineStart style depth)).append closes
      rwa [List.append_nil, List.append_nil] at whole

mutual

/-- What is written of a document, whatever its style: the keys' ends hold no quote. -/
theorem render (keys : Writes style.keyEnd []) (depth : Nat) :
    ∀ t : Tree, Writes (style.render depth t) t.floats
  | .scalar v => by
      rw [Style.render]
      exact scalar _ v
  | .list items => by
      rw [Style.render, Tree.floats, Tree.itemFloats_eq]
      exact enclose (plain (by decide) (by decide)) (plain (by decide) (by decide))
        (renderItems keys (depth + 1) items)
  | .table fields => by
      rw [Style.render, Tree.floats, Tree.fieldFloats_eq]
      exact enclose (plain (by decide) (by decide)) (plain (by decide) (by decide))
        (renderFields keys (depth + 1) fields)

theorem renderItems (keys : Writes style.keyEnd []) (depth : Nat) : ∀ items,
    List.Forall₂ Writes (style.renderItems depth items) (items.map Tree.floats)
  | [] => by
      rw [Style.renderItems]
      exact .nil
  | t :: items => by
      rw [Style.renderItems]
      exact .cons (render keys depth t) (renderItems keys depth items)

theorem renderFields (keys : Writes style.keyEnd []) (depth : Nat) : ∀ fields,
    List.Forall₂ Writes (style.renderFields depth fields) (fields.map (·.2.floats))
  | [] => by
      rw [Style.renderFields]
      exact .nil
  | (key, t) :: fields => by
      rw [Style.renderFields]
      refine .cons ?_ (renderFields keys depth fields)
      exact ((string _ key).append keys).append (render keys depth t)

end

theorem isNaN_of_mem {x : Float} (inside : 'N' ∈ floatText spelling x) : x.isNaN = true := by
  cases parts : Parts.of x with
  | notANumber => exact isNaN_iff.2 parts
  | infinite negative =>
      rw [floatText, parts] at inside
      cases negative <;> exact absurd inside (by decide)
  | finite negative m q => exact absurd (Numeral.finite parts _ inside) (by decide)

theorem isInf_of_mem {x : Float} (inside : 'I' ∈ floatText spelling x) : x.isInf = true := by
  cases parts : Parts.of x with
  | notANumber =>
      rw [floatText, parts] at inside
      exact absurd inside (by decide)
  | infinite negative => exact isInf_iff.2 ⟨negative, parts⟩
  | finite negative m q => exact absurd (Numeral.finite parts _ inside) (by decide)

/-- A word that is written for floats of one kind, with a capital letter that no other float has,
stands outside of strings exactly if one of the floats is of that kind. -/
theorem infix_iff (h : Writes s xs) {kind : Float → Prop} {word : List Char} {c : Char}
    (inside : c ∈ word) (upper : c.isUpper = true)
    (only : ∀ x, c ∈ floatText spelling x → kind x)
    (written : ∀ x, kind x → word <:+: floatText spelling x) :
    word <:+: outside .outer s ↔ ∃ x ∈ xs, kind x := by
  constructor
  · intro found
    obtain ⟨x, hx, given⟩ := h.capital c (found.subset inside) upper
    exact ⟨x, hx, only x given⟩
  · rintro ⟨x, hx, ofKind⟩
    exact (written x ofKind).trans (h.occurs x hx)

theorem isNaN_iff_infix (h : Writes s xs) :
    spelling.notANumber.toList <:+: outside .outer s ↔ ∃ x ∈ xs, x.isNaN = true := by
  have capital : 'N' ∈ spelling.notANumber.toList := by decide
  refine h.infix_iff capital (by decide) (fun _ => isNaN_of_mem) fun x notANumber => ?_
  rw [floatText, isNaN_iff.1 notANumber]

theorem isInf_iff_infix (h : Writes s xs) :
    spelling.infinity.toList <:+: outside .outer s ↔ ∃ x ∈ xs, x.isInf = true := by
  have capital : 'I' ∈ spelling.infinity.toList := by decide
  refine h.infix_iff capital (by decide) (fun _ => isInf_of_mem) fun x infinite => ?_
  obtain ⟨negative, parts⟩ := isInf_iff.1 infinite
  rw [floatText, parts]
  cases negative with
  | false => exact List.infix_rfl
  | true => exact (List.suffix_cons '-' _).isInfix

theorem standard_iff (h : Writes s xs) : Standard s ↔ ∀ x ∈ xs, x.isFinite = true := by
  rw [Standard, h.isNaN_iff_infix, h.isInf_iff_infix]
  push Not
  rw [← forall₂_and]
  exact forall₂_congr fun x _ => (isFinite_iff_not x).symm

/-- What is written of a document, with the line that it ends. -/
theorem document (keys : Writes style.keyEnd []) (t : Tree) :
    Writes (write style t ++ "\n").toList t.floats := by
  have line : Writes ['\n'] [] := plain (by decide) (by decide)
  have whole := (render keys 0 t).append line
  rw [List.append_nil] at whole
  rwa [write, String.toList_append, String.toList_ofList]

end Writes

end Words
end Json
end DependencyAudit
