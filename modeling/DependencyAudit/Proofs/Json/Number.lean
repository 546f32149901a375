import DependencyAudit.Json.Writing
import DependencyAudit.Json.Token
import DependencyAudit.Proofs.Number.Shortest

/-!
Numbers and words of a JSON text. A number ends where no character goes on with it, so what
was written in front of such a place is read as a whole. A float is read as the float nearest
to the decimal it was written as, which is the float itself.
-/
namespace DependencyAudit.Json

/-- What may stand behind a number: no character that goes on with it. -/
def Stops (rest : List Char) : Prop :=
  ∀ c ∈ rest.head?, isDigit c = false ∧ c ≠ '.' ∧ c ≠ 'e' ∧ c ≠ 'E'

/-- Digits in front of a point: a zero on its own, or digits that start with another one. -/
inductive Whole : List Char → Prop
  | zero : Whole ['0']
  | digits {c s} (first : c ≠ '0') (all : ∀ d ∈ c :: s, isDigit d = true) : Whole (c :: s)

section Scan
variable {s w places rest after : List Char} {negative : Bool} {e : Int}

theorem Stops.not_isDigit (h : Stops rest) : ∀ c ∈ rest.head?, isDigit c = false :=
  fun c hc => (h c hc).1

theorem Whole.isDigit (h : Whole w) : ∀ c ∈ w, isDigit c = true := by
  cases h with
  | zero => simp [DependencyAudit.isDigit]
  | digits _ all => exact all

theorem takeDigits_append (all : ∀ c ∈ s, isDigit c = true)
    (ended : ∀ c ∈ rest.head?, isDigit c = false) : takeDigits (s ++ rest) = (s, rest) := by
  rw [takeDigits, List.takeWhile_append_of_pos all, List.dropWhile_append_of_pos all]
  cases rest with
  | nil => simp
  | cons c rest => simp [ended c rfl]

theorem fraction_append (nonempty : places ≠ []) (all : ∀ c ∈ places, isDigit c = true)
    (ended : ∀ c ∈ rest.head?, isDigit c = false) :
    fraction ('.' :: places ++ rest) = (places, rest) := by
  simp [fraction, takeDigits_append all ended, nonempty]

theorem fraction_of_stops (h : ∀ c ∈ rest.head?, c ≠ '.') : fraction rest = ([], rest) := by
  unfold fraction
  split
  case h_1 => exact absurd rfl (h '.' rfl)
  case h_2 => rfl

theorem exponent_of_stops (h : Stops rest) : exponent rest = none := by
  unfold exponent
  split
  case h_1 => exact absurd rfl (h 'e' rfl).2.2.1
  case h_2 => exact absurd rfl (h 'E' rfl).2.2.2
  case h_3 => rfl

theorem number?_append (whole : Whole w) (ended : ∀ c ∈ rest.head?, isDigit c = false)
    (cut : fraction rest = (places, after)) :
    number? negative (w ++ rest) =
      match exponent after with
      | some (e, r) => some (.value (.float (floatNearest negative (natOfDigits (w ++ places))
          (e - places.length))), r)
      | none =>
        if !places.isEmpty then
          some (.value (.float (floatNearest negative (natOfDigits (w ++ places))
            (-places.length))), after)
        else if Reading.digitLimit < w.length then some (.longNumber w.length, rest)
        else some (.value (.int (Reading.signedValue negative w)), rest) := by
  have taken := takeDigits_append whole.isDigit ended
  cases whole with
  | zero =>
      simp only [number?, List.cons_append, List.nil_append, cut]
      rfl
  | digits first all =>
      unfold number?
      split
      rename_i front
      split at front
      case h_1 zero => exact absurd (List.cons.inj zero).1 first
      case h_2 =>
          rw [taken] at front
          cases front
          rw [List.isEmpty_cons, cut]
          exact if_neg Bool.false_ne_true

theorem number?_places (whole : Whole w) (nonempty : places ≠ [])
    (all : ∀ c ∈ places, isDigit c = true) (stops : Stops rest) :
    number? negative (w ++ ('.' :: places ++ rest)) =
      some (.value (.float (floatNearest negative (natOfDigits (w ++ places)) (-places.length))),
        rest) := by
  rw [number?_append whole (by simp [DependencyAudit.isDigit])
    (fraction_append nonempty all stops.not_isDigit), exponent_of_stops stops]
  simp [nonempty]

theorem number?_whole (whole : Whole w) (short : w.length ≤ Reading.digitLimit)
    (stops : Stops rest) :
    number? negative (w ++ rest) =
      some (.value (.int (Reading.signedValue negative w)), rest) := by
  rw [number?_append whole stops.not_isDigit (fraction_of_stops fun c hc => (stops c hc).2.1),
    exponent_of_stops stops]
  simp [Nat.not_lt.2 short]

end Scan

section Numbers
variable {d : Decimal} {rest : List Char} {negative : Bool} {e : Int}

theorem isDigit_of_mem_zeros {k : Nat} {c : Char} (h : c ∈ zeros k) : isDigit c = true := by
  rw [List.eq_of_mem_replicate h]
  rfl

theorem takeSign_sign (e : Int) (s : List Char) :
    Reading.takeSign ((if e < 0 then '-' else '+') :: s) = (decide (e < 0), s) := by
  split
  case isTrue below => simp [Reading.takeSign, below]
  case isFalse notBelow => simp [Reading.takeSign, notBelow]

theorem signedValue_eq {s : List Char} (h : natOfDigits s = e.natAbs) :
    Reading.signedValue (decide (e < 0)) s = e := by
  rw [Reading.signedValue, h]
  split
  case isTrue below =>
      have := of_decide_eq_true below
      omega
  case isFalse notBelow =>
      have := mt decide_eq_true notBelow
      omega

theorem exponent_exponentText (stops : Stops rest) (e : Int) :
    exponent ('e' :: Decimal.exponentText e ++ rest) = some (e, rest) := by
  set digits := zeros (2 - (natText e.natAbs).length) ++ natText e.natAbs with digits_eq
  have all : ∀ c ∈ digits, isDigit c = true := by
    intro c hc
    obtain zero | digit := List.mem_append.1 hc
    · exact isDigit_of_mem_zeros zero
    · exact isDigit_of_mem_toDigits digit
  have value : natOfDigits digits = e.natAbs := by
    rw [digits_eq, natOfDigits_append, natOfDigits_zeros, zero_mul, zero_add, natText,
      natOfDigits_toDigits]
  have nonempty : digits ≠ [] := by
    rw [digits_eq]
    exact List.append_ne_nil_of_right_ne_nil _ Nat.toDigits_ne_nil
  have text : 'e' :: Decimal.exponentText e ++ rest
      = 'e' :: (if e < 0 then '-' else '+') :: (digits ++ rest) := by
    simp [Decimal.exponentText, digits_eq]
  rw [text, exponent, exponentDigits, takeSign_sign]
  simp only [takeDigits_append all stops.not_isDigit, signedValue_eq value]
  simp [nonempty]

theorem number?_scientific {c : Char} {s : List Char} (first : c ≠ '0')
    (all : ∀ d ∈ c :: s, isDigit d = true) (stops : Stops rest) (e : Int) :
    number? negative
      (c :: ((if s = [] then [] else '.' :: s) ++ ('e' :: Decimal.exponentText e ++ rest))) =
      some (.value (.float (floatNearest negative (natOfDigits (c :: s)) (e - s.length))),
        rest) := by
  have whole : Whole [c] := .digits first fun d hd => all d (by simp_all)
  have places : ∀ d ∈ s, isDigit d = true := fun d hd => all d (List.mem_cons_of_mem c hd)
  rw [← List.singleton_append]
  split
  case isTrue nil =>
      subst nil
      rw [List.nil_append, number?_append whole (by simp [isDigit]) (fraction_of_stops (by simp)),
        exponent_exponentText stops]
      rfl
  case isFalse nonempty =>
      rw [number?_append whole (by simp [isDigit])
        (fraction_append nonempty places (by simp [isDigit])), exponent_exponentText stops]
      rfl

theorem whole_of_proper {w : List Char} (proper : d.Proper) (first : w.head? = d.digits.head?)
    (all : ∀ c ∈ w, isDigit c = true) : Whole w := by
  obtain ⟨c, s, digits, nonzero⟩ := proper.first
  rw [digits] at first
  cases w with
  | nil => cases first
  | cons b w =>
      cases first
      exact .digits nonzero all

theorem number?_below (proper : d.Proper) (stops : Stops rest) (below : d.point ≤ 0) :
    number? negative (d.positional ++ rest) = some (.value (.float (floatNearest negative
      (natOfDigits d.digits) (d.point - d.digits.length))), rest) := by
  obtain ⟨c, s, digits, -⟩ := proper.first
  have all : ∀ c ∈ zeros d.point.natAbs ++ d.digits, isDigit c = true := fun c hc =>
    (List.mem_append.1 hc).elim isDigit_of_mem_zeros (proper.digits c)
  have text : d.positional ++ rest
      = ['0'] ++ ('.' :: (zeros d.point.natAbs ++ d.digits) ++ rest) := by
    simp [Decimal.positional, below]
  have value : natOfDigits (['0'] ++ (zeros d.point.natAbs ++ d.digits))
      = natOfDigits d.digits := by
    rw [← List.append_assoc, natOfDigits_append, natOfDigits_append, natOfDigits_zeros]
    simp [natOfDigits]
  have tens : (-((zeros d.point.natAbs ++ d.digits).length : Int))
      = d.point - d.digits.length := by
    simp only [zeros, List.length_append, List.length_replicate]
    omega
  rw [text, number?_places .zero (by simp [digits]) all stops, value, tens]

/-- Positional text with the point behind the first digit. -/
theorem positional_of_pos {n : Nat} (point : d.point = n) (positive : 0 < n) :
    d.positional = d.digits.take n ++ zeros (n - d.digits.length) ++
      '.' :: (if d.digits.length ≤ n then ['0'] else d.digits.drop n) := by
  have missing : n - min n d.digits.length = n - d.digits.length := by omega
  simp [Decimal.positional, point, positive.ne', missing]

theorem head?_take_digits {n : Nat} (positive : 0 < n) (s : List Char) :
    (s.take n).head? = s.head? := by
  rw [List.head?_take, if_neg positive.ne']

theorem number?_within (proper : d.Proper) (stops : Stops rest) {n : Nat} (point : d.point = n)
    (positive : 0 < n) (within : n < d.digits.length) :
    number? negative (d.positional ++ rest) = some (.value (.float (floatNearest negative
      (natOfDigits d.digits) (d.point - d.digits.length))), rest) := by
  have text : d.positional ++ rest = d.digits.take n ++ ('.' :: d.digits.drop n ++ rest) := by
    rw [positional_of_pos point positive, if_neg (Nat.not_le.2 within),
      Nat.sub_eq_zero_of_le within.le]
    simp [zeros]
  have whole : Whole (d.digits.take n) :=
    whole_of_proper proper (head?_take_digits positive _)
      fun c hc => proper.digits c (List.mem_of_mem_take hc)
  have places : ∀ c ∈ d.digits.drop n, isDigit c = true :=
    fun c hc => proper.digits c (List.mem_of_mem_drop hc)
  have nonempty : d.digits.drop n ≠ [] := by
    simpa [List.drop_eq_nil_iff] using within
  have tens : (-((d.digits.drop n).length : Int)) = d.point - d.digits.length := by
    rw [List.length_drop]
    omega
  rw [text, number?_places whole nonempty places stops, List.take_append_drop, tens]

theorem number?_behind (proper : d.Proper) (stops : Stops rest) {n : Nat} (point : d.point = n)
    (positive : 0 < n) (behind : d.digits.length ≤ n) :
    number? negative (d.positional ++ rest) = some (.value (.float (floatNearest negative
      (natOfDigits d.digits * 10 ^ (n - d.digits.length + 1)) (-1))), rest) := by
  have text : d.positional ++ rest
      = d.digits ++ zeros (n - d.digits.length) ++ ('.' :: ['0'] ++ rest) := by
    rw [positional_of_pos point positive, if_pos behind, List.take_of_length_le behind]
    simp
  have whole : Whole (d.digits ++ zeros (n - d.digits.length)) := by
    obtain ⟨c, s, digits, -⟩ := proper.first
    refine whole_of_proper proper (by simp [digits]) fun c hc => ?_
    exact (List.mem_append.1 hc).elim (proper.digits c) isDigit_of_mem_zeros
  have value : natOfDigits (d.digits ++ zeros (n - d.digits.length) ++ ['0'])
      = natOfDigits d.digits * 10 ^ (n - d.digits.length + 1) := by
    have longer : zeros (n - d.digits.length) ++ ['0'] = zeros (n - d.digits.length + 1) :=
      List.replicate_succ'.symm
    rw [List.append_assoc, longer, natOfDigits_append, natOfDigits_zeros, Nat.add_zero, zeros,
      List.length_replicate]
  rw [text, number?_places whole (by simp) (by simp [isDigit]) stops, value]
  rfl

/-- A decimal in either notation is read for what it is worth. -/
theorem exists_number?_text (negative : Bool) (proper : d.Proper) (stops : Stops rest) :
    ∃ (digits : Nat) (tens : Int), (digits * 10 ^ tens : ℚ) = d.value ∧
      number? negative (d.text ++ rest) =
        some (.value (.float (floatNearest negative digits tens)), rest) := by
  rw [Decimal.text]
  split
  case isTrue positional =>
      obtain below | positive := le_or_gt d.point 0
      · exact ⟨_, _, rfl, number?_below proper stops below⟩
      · obtain ⟨n, point⟩ := Int.eq_ofNat_of_zero_le positive.le
        obtain within | behind := Nat.lt_or_ge n d.digits.length
        · exact ⟨_, _, rfl, number?_within proper stops point (by omega) within⟩
        · refine ⟨_, _, ?_, number?_behind proper stops point (by omega) behind⟩
          have tens : d.point - d.digits.length = (n - d.digits.length : Nat) := by omega
          rw [Decimal.value, tens, zpow_natCast, zpow_neg_one]
          push_cast
          rw [pow_succ]
          field_simp
  case isFalse =>
      obtain ⟨c, s, digits, nonzero⟩ := proper.first
      refine ⟨natOfDigits d.digits, d.point - 1 - s.length, ?_, ?_⟩
      · rw [Decimal.value, digits, List.length_cons]
        congr 2
        push_cast
        ring
      · have text : d.scientific ++ rest = c :: ((if s = [] then [] else '.' :: s)
            ++ ('e' :: Decimal.exponentText (d.point - 1) ++ rest)) := by
          simp [Decimal.scientific, digits, List.length_eq_zero_iff]
        rw [text, number?_scientific nonzero (digits ▸ proper.digits) stops, digits]

/-- A number starts with a digit. -/
theorem isDigit_of_number? {s : List Char} {r : Token × List Char}
    (h : number? negative s = some r) : ∃ c t, s = c :: t ∧ isDigit c = true := by
  cases s with
  | nil => simp [number?, takeDigits] at h
  | cons c t =>
      refine ⟨c, t, rfl, ?_⟩
      by_contra other
      have nonzero : c ≠ '0' := fun zero => other (by rw [zero]; rfl)
      simp [number?, nonzero, takeDigits, other] at h

theorem after?_of_digit {c w : Char} (digit : isDigit c = true) (other : isDigit w = false)
    (ws s : List Char) : Text.after? (w :: ws) (c :: s) = none :=
  if_neg fun same => by simp [← same, other] at digit

theorem word?_of_digit {c : Char} (digit : isDigit c = true) (s : List Char) :
    word? (signed negative (c :: s)) = none := by
  cases negative with
  | false => simp [word?, words, signed, after?_of_digit digit, isDigit]
  | true =>
      have infinity : Text.after? "Infinity".toList (c :: s) = none :=
        after?_of_digit digit rfl "nfinity".toList s
      simp only [word?, words, signed, List.findSome?_eq_none_iff, List.forall_mem_cons]
      exact ⟨rfl, rfl, rfl, rfl, rfl, by simpa [Text.after?] using infinity, by simp⟩

theorem numberOrWord_signed {s : List Char} {r : Token × List Char}
    (h : number? negative s = some r) : numberOrWord (signed negative s) = r := by
  obtain ⟨c, t, rfl, digit⟩ := isDigit_of_number? h
  unfold numberOrWord
  rw [word?_of_digit digit]
  cases negative with
  | true => simp [signed, h]
  | false =>
      have noSign : c ≠ '-' := by
        rintro rfl
        cases digit
      simp [signed, noSign, h]

theorem whole_natText (n : Nat) : Whole (natText n) := by
  obtain rfl | positive := Nat.eq_zero_or_pos n
  · exact .zero
  · obtain ⟨c, s, digits, nonzero⟩ := toDigits_eq_cons positive
    rw [natText, digits]
    exact .digits nonzero (digits ▸ fun d hd => isDigit_of_mem_toDigits hd)

theorem length_natText_le {n limit : Nat} (positive : 0 < limit) (h : n < Nat.pow 10 limit) :
    (natText n).length ≤ limit :=
  (Nat.length_toDigits_le_iff (by decide) positive).2 h

theorem numberOrWord_intText (short : (Scalar.int e).isLong = false) (stops : Stops rest) :
    numberOrWord (intText e ++ rest) = (.value (.int e), rest) := by
  rw [Scalar.isLong, decide_eq_false_iff_not, not_le] at short
  have length : (natText e.natAbs).length ≤ Reading.digitLimit :=
    length_natText_le (Nat.succ_pos _) short
  have text : intText e ++ rest = signed (decide (e < 0)) (natText e.natAbs ++ rest) := by
    rw [intText]
    split <;> simp [signed, *]
  rw [text, numberOrWord_signed (number?_whole (whole_natText _) length stops),
    signedValue_eq (s := natText e.natAbs) (natOfDigits_toDigits _)]

/-- A float is read back as it was written. -/
theorem numberOrWord_floatText (x : Float) (stops : Stops rest) :
    numberOrWord (floatText spelling x ++ rest) = (.value (.float x), rest) := by
  unfold floatText
  split
  case h_1 parts =>
      have same : x = 0 / 0 := (eq_ofParts x).trans (by rw [parts]; rfl)
      rw [same]
      simp [spelling, numberOrWord, word?, words, Text.after?]
  case h_2 negative parts =>
      have same : x = if negative then -(1 / 0) else 1 / 0 :=
        (eq_ofParts x).trans (by rw [parts]; cases negative <;> rfl)
      rw [same]
      cases negative <;> simp [spelling, numberOrWord, word?, words, Text.after?, signed]
  case h_3 negative q parts =>
      obtain ⟨same, range⟩ := eq_floatOf parts
      have least : q = -1074 := range.full.resolve_left (by decide)
      have zero : x = if negative then -0 else 0 := by
        rw [same, least]
        cases negative <;> rfl
      have text : signed negative ['0', '.', '0'] ++ rest
          = signed negative (['0'] ++ ('.' :: ['0'] ++ rest)) := by
        cases negative <;> rfl
      have read : number? negative (['0'] ++ ('.' :: ['0'] ++ rest)) = _ :=
        number?_places .zero (by simp) (by simp [isDigit]) stops
      rw [text, numberOrWord_signed read, zero]
      rfl
  case h_4 negative m q nonzero parts =>
      obtain ⟨same, range⟩ := eq_floatOf parts
      have positive : 0 < m := Nat.pos_of_ne_zero nonzero
      obtain ⟨proper, nearest⟩ := Decimal.shortest_spec range.toCanonical positive
      obtain ⟨digits, tens, value, read⟩ := exists_number?_text negative proper stops
      have digits_pos : 0 < digits := by
        refine Nat.pos_of_ne_zero fun zero => ?_
        have least := (nearest.bounds range positive).1
        rw [← value, zero, Nat.cast_zero, zero_mul] at least
        exact absurd least (not_le.2 (by positivity))
      have text : signed negative (Decimal.shortest m q).text ++ rest
          = signed negative ((Decimal.shortest m q).text ++ rest) := by
        cases negative <;> rfl
      rw [text, numberOrWord_signed read,
        floatNearest_eq negative digits_pos range positive (value ▸ nearest), same]

/-- A number or a word starts with a digit, a sign or a letter. -/
theorem starts_of_numberOrWord {s : List Char} {v : Scalar}
    (h : numberOrWord s = (.value v, rest)) :
    ∃ c t, s = c :: t ∧ (isDigit c = true ∨ c ∈ ['-', 'n', 't', 'f', 'N', 'I']) := by
  unfold numberOrWord at h
  split at h
  case h_1 found =>
      obtain ⟨⟨w, v⟩, word, found⟩ := List.exists_of_findSome?_eq_some found
      obtain ⟨t, behind, -⟩ := Option.map_eq_some_iff.1 found
      obtain rfl := Text.after?_eq_some_iff.1 behind
      simp only [words, List.mem_cons, Prod.mk.injEq, List.not_mem_nil, or_false] at word
      rcases word with ⟨rfl, -⟩ | ⟨rfl, -⟩ | ⟨rfl, -⟩ | ⟨rfl, -⟩ | ⟨rfl, -⟩ | ⟨rfl, -⟩ <;>
        exact ⟨_, _, rfl, .inr (by decide)⟩
  case h_2 =>
      simp only at h
      split at h
      case h_1 => exact ⟨'-', _, rfl, .inr (by decide)⟩
      case h_2 =>
          cases read : number? false s with
          | none => simp [read] at h
          | some r =>
              obtain ⟨c, t, same, digit⟩ := isDigit_of_number? read
              exact ⟨c, t, same, .inl digit⟩

end Numbers
end DependencyAudit.Json
