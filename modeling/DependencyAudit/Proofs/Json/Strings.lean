import DependencyAudit.Json.Writing
import DependencyAudit.Json.Token
import Mathlib

/-!
Strings of a JSON text. Each character is written so that a reader takes it back from its
escape, whatever stands behind; a string ends at its closing quote and at no other.
-/
namespace DependencyAudit.Json

section Hex
variable {n : Nat}

theorem hexNumber?_append_singleton (s : List Char) (c : Char) :
    Reading.hexNumber? (s ++ [c]) =
      (Reading.hexNumber? s).bind fun n => (Reading.hexValue? c).map (16 * n + ·) := by
  rw [Reading.hexNumber?, List.foldl_append]
  cases h : Reading.hexNumber? s <;> cases d : Reading.hexValue? c <;>
    simp_all [Reading.hexNumber?]

theorem hexValue?_digitChar : ∀ d < 16, Reading.hexValue? (Nat.digitChar d) = some d := by
  decide

theorem hexNumber?_zeros (k : Nat) : Reading.hexNumber? (List.replicate k '0') = some 0 := by
  induction k with
  | zero => rfl
  | succ k ih =>
      rw [List.replicate_succ', hexNumber?_append_singleton, ih]
      rfl

theorem hexNumber?_toDigits (k n : Nat) :
    Reading.hexNumber? (List.replicate k '0' ++ Nat.toDigits 16 n) = some n := by
  induction n using Nat.strongRecOn with
  | _ n ih =>
      obtain small | large := Nat.lt_or_ge n 16
      · rw [Nat.toDigits_of_lt_base small, hexNumber?_append_singleton, hexNumber?_zeros,
          hexValue?_digitChar n small]
        simp
      · rw [Nat.toDigits_of_base_le (by decide) large, ← List.append_assoc,
          hexNumber?_append_singleton, ih (n / 16) (Nat.div_lt_self (by omega) (by decide)),
          hexValue?_digitChar _ (Nat.mod_lt n (by decide))]
        simp [Nat.div_add_mod]

/-- The escape of a unit has four digits, and they are read back. -/
theorem exists_unitEscape (h : n < 0x10000) :
    ∃ a b c d, unitEscape n = ['\\', 'u', a, b, c, d] ∧
      Reading.hexNumber? [a, b, c, d] = some n := by
  have length : (Nat.toDigits 16 n).length ≤ 4 :=
    (Nat.length_toDigits_le_iff (by decide) (by decide)).2 h
  have read := hexNumber?_toDigits (4 - (Nat.toDigits 16 n).length) n
  have text : unitEscape n = '\\' :: 'u' ::
      (List.replicate (4 - (Nat.toDigits 16 n).length) '0' ++ Nat.toDigits 16 n) := by
    simp [unitEscape, Utf8.hexDigits]
  have four : (List.replicate (4 - (Nat.toDigits 16 n).length) '0'
      ++ Nat.toDigits 16 n).length = 4 := by
    simp only [List.length_append, List.length_replicate]
    omega
  rw [text]
  generalize List.replicate (4 - (Nat.toDigits 16 n).length) '0' ++ Nat.toDigits 16 n = digits
    at read four
  match digits, four with
  | [a, b, c, d], _ => exact ⟨a, b, c, d, rfl, read⟩

end Hex

section Character
variable {start pos n high low : Nat} {t : List Char} {c e : Char}

theorem stringBody_unit (h : n < 0x10000) (lone : isHighSurrogate n = false) (nonempty : t ≠ []) :
    stringBody start pos (unitEscape n ++ t)
      = ontoContent (loneUnit n) 6 (stringBody start (pos + 6) t) := by
  obtain ⟨a, b, c, d, text, read⟩ := exists_unitEscape h
  rw [text]
  -- another unit that stands behind is looked at, but only a high surrogate takes it
  by_cases second : ∃ e f g h s, t = '\\' :: 'u' :: e :: f :: g :: h :: s
  · obtain ⟨e, f, g, h, s, rfl⟩ := second
    simp [stringBody, read, lone]
  · have alone : ∀ e f g h s, t = '\\' :: 'u' :: e :: f :: g :: h :: s → False :=
      fun e f g h s same => second ⟨e, f, g, h, s, same⟩
    rw [List.cons_append, List.cons_append, List.cons_append, List.cons_append, List.cons_append,
      List.cons_append, List.nil_append, stringBody.eq_5 _ _ _ _ _ _ _ alone]
    simp [read, nonempty]

theorem stringBody_pair (hh : high < 0x10000) (hl : low < 0x10000)
    (isHigh : isHighSurrogate high = true) (isLow : isLowSurrogate low = true) (nonempty : t ≠ []) :
    stringBody start pos (unitEscape high ++ unitEscape low ++ t)
      = ontoContent (some (joinSurrogates high low)) 12 (stringBody start (pos + 12) t) := by
  obtain ⟨a, b, c, d, text, read⟩ := exists_unitEscape hh
  obtain ⟨a', b', c', d', text', read'⟩ := exists_unitEscape hl
  rw [text, text']
  simp [stringBody, read, read', isHigh, isLow, nonempty]

theorem stringBody_simple (h : simpleEscape? c = some e) :
    stringBody start pos ('\\' :: c :: t) =
      ontoContent (some e) 2 (stringBody start (pos + 2) t) := by
  have notUnicode : c ≠ 'u' := by
    rintro rfl
    cases h
  simp [stringBody, h, notUnicode]

theorem stringBody_plain (quote : c ≠ '"') (backslash : c ≠ '\\') (printed : 0x20 ≤ c.toNat) :
    stringBody start pos (c :: t) = ontoContent (some c) 1 (stringBody start (pos + 1) t) := by
  simp [stringBody, backslash, Nat.not_lt.2 printed]

theorem isValidChar_toNat (c : Char) : c.toNat.isValidChar := c.valid

theorem not_isHighSurrogate (c : Char) : isHighSurrogate c.toNat = false := by
  have valid := isValidChar_toNat c
  rw [Nat.isValidChar] at valid
  rw [Bool.eq_false_iff]
  intro high
  simp only [isHighSurrogate, Bool.and_eq_true, decide_eq_true_eq] at high
  omega

theorem not_isLowSurrogate (c : Char) : isLowSurrogate c.toNat = false := by
  have valid := isValidChar_toNat c
  rw [Nat.isValidChar] at valid
  rw [Bool.eq_false_iff]
  intro low
  simp only [isLowSurrogate, Bool.and_eq_true, decide_eq_true_eq] at low
  omega

theorem loneUnit_toNat (c : Char) : loneUnit c.toNat = some c := by
  simp [loneUnit, not_isHighSurrogate, not_isLowSurrogate]

theorem length_unitEscape (h : n < 0x10000) : (unitEscape n).length = 6 := by
  obtain ⟨a, b, c, d, text, -⟩ := exists_unitEscape h
  rw [text]
  rfl

theorem stringBody_unicodeEscape (c : Char) (nonempty : t ≠ []) :
    stringBody start pos (unicodeEscape c ++ t)
      = ontoContent (some c) (unicodeEscape c).length
        (stringBody start (pos + (unicodeEscape c).length) t) := by
  simp only [unicodeEscape]
  split
  case isTrue basic =>
      rw [stringBody_unit basic (not_isHighSurrogate c) nonempty, length_unitEscape basic,
        loneUnit_toNat]
  case isFalse beyond =>
      have valid := isValidChar_toNat c
      rw [Nat.isValidChar] at valid
      have high : 0xD800 + (c.toNat - 0x10000) / 0x400 < 0x10000 := by omega
      have low : 0xDC00 + (c.toNat - 0x10000) % 0x400 < 0x10000 := by omega
      have isHigh : isHighSurrogate (0xD800 + (c.toNat - 0x10000) / 0x400) = true := by
        simp only [isHighSurrogate, Bool.and_eq_true, decide_eq_true_eq]
        omega
      have isLow : isLowSurrogate (0xDC00 + (c.toNat - 0x10000) % 0x400) = true := by
        simp only [isLowSurrogate, Bool.and_eq_true, decide_eq_true_eq]
        omega
      have joined : joinSurrogates (0xD800 + (c.toNat - 0x10000) / 0x400)
          (0xDC00 + (c.toNat - 0x10000) % 0x400) = c := by
        rw [joinSurrogates, Nat.add_sub_cancel_left, Nat.add_sub_cancel_left, Nat.add_assoc,
          Nat.div_add_mod', Nat.add_sub_cancel' (Nat.not_lt.1 beyond), Char.ofNat_toNat]
      rw [stringBody_pair high low isHigh isLow nonempty, List.length_append,
        length_unitEscape high, length_unitEscape low, joined]

/-- Each character is taken back from its escape. -/
theorem stringBody_escape (asciiOnly : Bool) (c : Char) (nonempty : t ≠ []) :
    stringBody start pos (escape asciiOnly c ++ t)
      = ontoContent (some c) (escape asciiOnly c).length
        (stringBody start (pos + (escape asciiOnly c).length) t) := by
  unfold escape
  split_ifs with quoted newline carriageReturn tab backspace feed unicode
  · apply stringBody_simple
    rcases Bool.or_eq_true_iff.1 quoted with same | same <;> rw [eq_of_beq same] <;> rfl
  · exact stringBody_simple (eq_of_beq newline ▸ rfl)
  · exact stringBody_simple (eq_of_beq carriageReturn ▸ rfl)
  · exact stringBody_simple (eq_of_beq tab ▸ rfl)
  · exact stringBody_simple (eq_of_beq backspace ▸ rfl)
  · exact stringBody_simple (eq_of_beq feed ▸ rfl)
  · exact stringBody_unicodeEscape c nonempty
  · rw [Bool.or_eq_true, not_or, beq_iff_eq, beq_iff_eq] at quoted
    rw [Bool.or_eq_true, not_or, decide_eq_true_eq, Nat.not_lt] at unicode
    exact stringBody_plain quoted.1 quoted.2 unicode.1

end Character

/-- A string is read back up to its closing quote. -/
theorem stringBody_append (asciiOnly : Bool) (start pos : Nat) (s rest : List Char) :
    stringBody start pos (s.flatMap (escape asciiOnly) ++ '"' :: rest)
      = .ok (s.map some, (s.flatMap (escape asciiOnly)).length + 1) := by
  induction s generalizing pos with
  | nil => simp [stringBody]
  | cons c s ih =>
      rw [List.flatMap_cons, List.append_assoc, stringBody_escape asciiOnly c (by simp), ih]
      simp only [ontoContent, Except.map, List.length_append, List.map_cons]
      congr 2
      omega

/-- A content without halves of pairs is a string. -/
theorem stringToken_map_some (s : List Char) : stringToken (s.map some) = .string s := by
  simp [stringToken, Function.comp_def]

end DependencyAudit.Json
