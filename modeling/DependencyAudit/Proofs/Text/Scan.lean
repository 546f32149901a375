import DependencyAudit.Text.Scan

/-!
What a scan finds, by place. Among all the places where something stands, a scan
chooses from left to right: what it chooses stands apart, and nothing is left out
but what starts inside a chosen span. This determines the choice.
-/
namespace DependencyAudit.Text
variable {α : Type}

/-- A value read from the characters from `start` up to `stop`, which is not one of them. -/
structure Span (α : Type) where
  start : Nat
  stop : Nat
  value : α

/-- The leftmost spans without overlap among those that occur. -/
structure Leftmost (occurs : Span α → Prop) (spans : List (Span α)) : Prop where
  sound : ∀ x ∈ spans, occurs x
  apart : spans.Pairwise fun x y => x.stop ≤ y.start
  complete : ∀ x, occurs x → x ∈ spans ∨ ∃ y ∈ spans, y.start < x.start ∧ x.start < y.stop

namespace Leftmost
variable {occurs : Span α → Prop} {spans : List (Span α)}

theorem congr {others : Span α → Prop} (h : Leftmost occurs spans)
    (same : ∀ x, occurs x ↔ others x) : Leftmost others spans where
  sound x hx := (same x).1 (h.sound x hx)
  apart := h.apart
  complete x hx := h.complete x ((same x).2 hx)

theorem nil (h : ∀ x, ¬ occurs x) : Leftmost occurs [] where
  sound := nofun
  apart := .nil
  complete x hx := absurd hx (h x)

/-- A first span is chosen where nothing starts before it and nothing else with it. -/
theorem cons {x : Span α} (here : occurs x) (first : ∀ y, occurs y → x.start ≤ y.start)
    (only : ∀ y, occurs y → y.start = x.start → y = x)
    (rest : Leftmost (fun y => occurs y ∧ x.stop ≤ y.start) spans) :
    Leftmost occurs (x :: spans) where
  sound y hy := by
    obtain rfl | hy := List.mem_cons.1 hy
    · exact here
    · exact (rest.sound y hy).1
  apart := List.pairwise_cons.2 ⟨fun y hy => (rest.sound y hy).2, rest.apart⟩
  complete y hy := by
    by_cases behind : x.stop ≤ y.start
    · obtain chosen | ⟨z, hz, within⟩ := rest.complete y ⟨hy, behind⟩
      · exact .inl (List.mem_cons_of_mem x chosen)
      · exact .inr ⟨z, List.mem_cons_of_mem x hz, within⟩
    · by_cases same : y.start = x.start
      · exact .inl (only y hy same ▸ List.mem_cons_self)
      · have := first y hy
        exact .inr ⟨x, List.mem_cons_self, by omega, by omega⟩

theorem first_le {x y : Span α} (h : Leftmost occurs (x :: spans))
    (ordered : ∀ z, occurs z → z.start < z.stop) (hy : occurs y) : x.start ≤ y.start := by
  have later : ∀ z ∈ x :: spans, x.start ≤ z.start := by
    intro z hz
    obtain rfl | hz := List.mem_cons.1 hz
    · exact Nat.le_refl _
    · have := (List.pairwise_cons.1 h.apart).1 z hz
      have := ordered x (h.sound x List.mem_cons_self)
      omega
  obtain chosen | ⟨z, hz, within⟩ := h.complete y hy
  · exact later y chosen
  · have := later z hz
    omega

theorem tail {x : Span α} (h : Leftmost occurs (x :: spans))
    (ordered : ∀ z, occurs z → z.start < z.stop) :
    Leftmost (fun y => occurs y ∧ x.stop ≤ y.start) spans where
  sound y hy :=
    ⟨h.sound y (List.mem_cons_of_mem x hy), (List.pairwise_cons.1 h.apart).1 y hy⟩
  apart := h.apart.of_cons
  complete y hy := by
    have positive := ordered x (h.sound x List.mem_cons_self)
    obtain chosen | ⟨z, hz, within⟩ := h.complete y hy.1
    · obtain rfl | chosen := List.mem_cons.1 chosen
      · omega
      · exact .inl chosen
    · obtain rfl | hz := List.mem_cons.1 hz
      · omega
      · exact .inr ⟨z, hz, within⟩

theorem apart_of_mem {x y : Span α} (h : Leftmost occurs spans) (hx : x ∈ spans) (hy : y ∈ spans) :
    x = y ∨ x.stop ≤ y.start ∨ y.stop ≤ x.start := by
  obtain ⟨i, hi, rfl⟩ := List.mem_iff_getElem.1 hx
  obtain ⟨j, hj, rfl⟩ := List.mem_iff_getElem.1 hy
  have apart := List.pairwise_iff_getElem.1 h.apart
  obtain before | rfl | behind := Nat.lt_trichotomy i j
  · exact .inr (.inl (apart i j hi hj before))
  · exact .inl rfl
  · exact .inr (.inr (apart j i hj hi behind))

/-- Something that stands in the text is chosen unless a chosen span goes on over its start. -/
theorem mem_iff_of_occurs {x : Span α} (h : Leftmost occurs spans) (hx : occurs x)
    (nonempty : x.start < x.stop) :
    x ∈ spans ↔ ¬ ∃ y ∈ spans, y.start < x.start ∧ x.start < y.stop := by
  constructor
  · intro chosen
    rintro ⟨y, hy, before, astride⟩
    obtain rfl | apart | apart := h.apart_of_mem chosen hy <;> omega
  · exact (h.complete x hx).resolve_right

/-- Where at most one thing stands at each place, there is one choice only. -/
theorem unique (ordered : ∀ z, occurs z → z.start < z.stop)
    (determined : ∀ x y, occurs x → occurs y → x.start = y.start → x = y)
    (h : Leftmost occurs spans) {others : List (Span α)} (h' : Leftmost occurs others) :
    others = spans := by
  induction spans generalizing occurs others with
  | nil =>
      cases others with
      | nil => rfl
      | cons y others => exact absurd (h.complete y (h'.sound y List.mem_cons_self)) (by simp)
  | cons x spans ih =>
      cases others with
      | nil => exact absurd (h'.complete x (h.sound x List.mem_cons_self)) (by simp)
      | cons y others =>
          have hx := h.sound x List.mem_cons_self
          have hy := h'.sound y List.mem_cons_self
          have start : x.start = y.start :=
            Nat.le_antisymm (h.first_le ordered hy) (h'.first_le ordered hx)
          obtain rfl := determined x y hx hy start
          rw [ih (fun z hz => ordered z hz.1) (fun z w hz hw => determined z w hz.1 hw.1)
            (h.tail ordered) (h'.tail ordered)]

end Leftmost

section Scan
variable {found : Option Char → List Char → Option (α × List Char)}

/-- Whatever is found takes up some characters at the front. -/
def Consumes (found : Option Char → List Char → Option (α × List Char)) : Prop :=
  ∀ p s a r, found p s = some (a, r) → ∃ text, text ≠ [] ∧ s = text ++ r

def FoundAt (found : Option Char → List Char → Option (α × List Char)) (s : List Char)
    (x : Span α) : Prop :=
  ∃ before text after, s = before ++ text ++ after ∧ x.start = before.length ∧
    x.stop = before.length + text.length ∧
    found before.getLast? (text ++ after) = some (x.value, after)

theorem FoundAt.ordered (consumes : Consumes found) {s : List Char} {x : Span α}
    (h : FoundAt found s x) : x.start < x.stop := by
  obtain ⟨before, text, after, _, start, stop, here⟩ := h
  obtain ⟨taken, nonempty, split⟩ := consumes _ _ _ _ here
  obtain rfl := List.append_cancel_right split
  have := List.length_pos_iff.2 nonempty
  omega

theorem FoundAt.lt_length (consumes : Consumes found) {s : List Char} {x : Span α}
    (h : FoundAt found s x) : x.start < s.length := by
  have ordered := h.ordered consumes
  obtain ⟨before, text, after, rfl, start, stop, _⟩ := h
  simp only [List.length_append]
  omega

theorem FoundAt.found_eq {before s : List Char} {x : Span α} (h : FoundAt found (before ++ s) x)
    (start : x.start = before.length) :
    ∃ text after, s = text ++ after ∧ x.stop = before.length + text.length ∧
      found before.getLast? s = some (x.value, after) := by
  obtain ⟨first, text, after, split, start', stop, here⟩ := h
  rw [List.append_assoc] at split
  obtain ⟨rfl, rfl⟩ := List.append_inj split (by omega)
  exact ⟨text, after, rfl, stop, here⟩

theorem FoundAt.found_drop {s : List Char} {x : Span α} (h : FoundAt found s x) :
    found (s.take x.start).getLast? (s.drop x.start) = some (x.value, s.drop x.stop) := by
  obtain ⟨before, text, after, rfl, start, stop, here⟩ := h
  rw [start, stop, ← List.length_append, List.drop_left, List.append_assoc, List.drop_left,
    List.take_left, here]

theorem FoundAt.determined {s : List Char} {x y : Span α} (hx : FoundAt found s x)
    (hy : FoundAt found s y) (start : x.start = y.start) : x = y := by
  obtain ⟨before, text, after, rfl, hstart, hstop, here⟩ := hx
  rw [List.append_assoc] at hy
  obtain ⟨text', after', split, stop, there⟩ := hy.found_eq (by omega)
  rw [here] at there
  obtain ⟨value, rfl⟩ := Prod.mk.inj (Option.some.inj there)
  obtain rfl := List.append_cancel_right split
  obtain ⟨⟩ := x
  obtain ⟨⟩ := y
  simp_all

theorem scanFrom_of_none {p : Option Char} {c : Char} {s : List Char}
    (h : found p (c :: s) = none) : scanFrom found p 0 (c :: s) = scanFrom found (some c) 0 s := by
  rw [scanFrom, h]

/-- A stretch where nothing starts is passed over. -/
theorem scanFrom_of_forall_none {p : Option Char} {a s : List Char}
    (h : ∀ q t, t ≠ [] → t <:+ a → found q (t ++ s) = none) :
    scanFrom found p 0 (a ++ s) = scanFrom found (a.getLast?.or p) 0 s := by
  induction a generalizing p with
  | nil => rfl
  | cons c a ih =>
      have first : found p (c :: (a ++ s)) = none :=
        h p (c :: a) (List.cons_ne_nil c a) List.suffix_rfl
      rw [List.cons_append, scanFrom_of_none first, List.getLast?_cons,
        ih fun q t nonempty within => h q t nonempty (within.trans (List.suffix_cons c a))]
      cases a.getLast? <;> rfl

theorem scanFrom_eq_nil {p : Option Char} {s : List Char}
    (h : ∀ q t, t <:+ s → found q t = none) : scanFrom found p 0 s = [] := by
  have passed : scanFrom found p 0 (s ++ []) = scanFrom found (s.getLast?.or p) 0 [] := by
    apply scanFrom_of_forall_none
    intro q t _ within
    rw [List.append_nil]
    exact h q t within
  rw [List.append_nil] at passed
  rw [passed, scanFrom]

theorem scanFrom_skip (p : Option Char) (text s : List Char) :
    scanFrom found p text.length (text ++ s) = scanFrom found (text.getLast?.or p) 0 s := by
  induction text generalizing p with
  | nil => rfl
  | cons c text ih =>
      rw [List.length_cons, List.cons_append, scanFrom, ih, List.getLast?_cons]
      cases text.getLast? <;> rfl

theorem scanFrom_of_some {p : Option Char} {text rest : List Char} {a : α} (nonempty : text ≠ [])
    (h : found p (text ++ rest) = some (a, rest)) :
    scanFrom found p 0 (text ++ rest) = a :: scanFrom found text.getLast? 0 rest := by
  cases text with
  | nil => exact absurd rfl nonempty
  | cons c text =>
      have size : (text ++ rest).length - rest.length = text.length := by simp
      rw [List.cons_append] at h ⊢
      rw [scanFrom, h]
      simp only [size, scanFrom_skip, List.getLast?_cons]
      cases text.getLast? <;> rfl

theorem exists_found_of_mem_scanFrom {p : Option Char} {skip : Nat} {s : List Char} {a : α}
    (h : a ∈ scanFrom found p skip s) : ∃ q t r, t <:+ s ∧ found q t = some (a, r) := by
  induction s generalizing p skip with
  | nil => simp [scanFrom] at h
  | cons c s ih =>
      have later {p : Option Char} {skip : Nat} (h : a ∈ scanFrom found p skip s) :
          ∃ q t r, t <:+ c :: s ∧ found q t = some (a, r) := by
        obtain ⟨q, t, r, behind, read⟩ := ih h
        exact ⟨q, t, r, behind.trans (List.suffix_cons c s), read⟩
      cases skip with
      | succ skip => exact later h
      | zero =>
          cases here : found p (c :: s) with
          | none => exact later (scanFrom_of_none here ▸ h)
          | some result =>
              obtain ⟨b, rest⟩ := result
              simp only [scanFrom, here, List.mem_cons] at h
              obtain rfl | h := h
              · exact ⟨p, c :: s, rest, List.suffix_rfl, here⟩
              · exact later h

/-- A scan goes on behind what it found, so the induction is on what is left of the text. -/
theorem exists_leftmost_scanFrom (consumes : Consumes found) (before s : List Char) :
    ∃ spans, scanFrom found before.getLast? 0 s = spans.map (·.value) ∧
      Leftmost (fun x => FoundAt found (before ++ s) x ∧ before.length ≤ x.start) spans := by
  match s with
  | [] =>
      refine ⟨[], rfl, .nil ?_⟩
      intro x hx
      have := hx.1.lt_length consumes
      simp only [List.append_nil] at this
      omega
  | c :: s =>
      cases here : found before.getLast? (c :: s) with
      | none =>
          obtain ⟨spans, values, leftmost⟩ :=
            exists_leftmost_scanFrom consumes (before ++ [c]) s
          simp only [List.getLast?_concat, List.append_assoc, List.singleton_append,
            List.length_append, List.length_singleton] at values leftmost
          refine ⟨spans, by rw [scanFrom_of_none here, values], leftmost.congr fun x => ?_⟩
          refine and_congr_right fun hx => ?_
          have elsewhere : x.start ≠ before.length := by
            intro start
            obtain ⟨_, _, _, _, there⟩ := hx.found_eq start
            cases here.symm.trans there
          omega
      | some result =>
          obtain ⟨a, rest⟩ := result
          obtain ⟨text, nonempty, split⟩ := consumes _ _ _ _ here
          rw [split] at here ⊢
          have shorter : rest.length < (c :: s).length := by
            have := List.length_pos_iff.2 nonempty
            rw [split, List.length_append]
            omega
          obtain ⟨spans, values, leftmost⟩ :=
            exists_leftmost_scanFrom consumes (before ++ text) rest
          have last : (before ++ text).getLast? = text.getLast? := by
            rw [List.getLast?_append, List.getLast?_eq_some_getLast nonempty]
            rfl
          rw [last] at values
          rw [List.append_assoc, List.length_append] at leftmost
          let x : Span α := ⟨before.length, before.length + text.length, a⟩
          have standing : FoundAt found (before ++ (text ++ rest)) x :=
            ⟨before, text, rest, (List.append_assoc ..).symm, rfl, rfl, here⟩
          have read : scanFrom found before.getLast? 0 (text ++ rest) =
              (x :: spans).map (·.value) := by
            rw [scanFrom_of_some nonempty here, values]
            rfl
          refine ⟨x :: spans, read, .cons ?_ ?_ ?_ ?_⟩
          · exact ⟨standing, Nat.le_refl _⟩
          · exact fun y hy => hy.2
          · exact fun y hy start => hy.1.determined standing start
          · refine leftmost.congr fun y => ?_
            exact ⟨fun h => ⟨⟨h.1, Nat.le_trans (Nat.le_add_right ..) h.2⟩, h.2⟩,
              fun h => ⟨h.1.1, h.2⟩⟩
termination_by s.length
decreasing_by
  · exact Nat.lt_succ_self s.length
  · exact shorter

theorem exists_leftmost_scan (consumes : Consumes found) (s : List Char) :
    ∃ spans, scan found s = spans.map (·.value) ∧ Leftmost (FoundAt found s) spans := by
  obtain ⟨spans, values, leftmost⟩ := exists_leftmost_scanFrom consumes [] s
  exact ⟨spans, values, leftmost.congr fun x => by simp⟩

end Scan
end DependencyAudit.Text
