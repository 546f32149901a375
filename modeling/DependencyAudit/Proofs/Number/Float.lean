import DependencyAudit.Proofs.Number.Rounding

/-!
Floats by their parts. A finite float is packed from a sign, a significand and an exponent
in range, and gives these back; every float is the one of the parts that it is taken apart
into.
-/
namespace DependencyAudit
open Float.Model Float.Model.UnpackedFloat

/-- The significands and exponents of floats. -/
structure InRange (m : Nat) (q : Int) : Prop extends Canonical m q where
  most : q ≤ 971

def signOf (negative : Bool) : Sign := if negative then .negative else .positive

def floatOf (negative : Bool) (m : Nat) (q : Int) : Float :=
  .ofModel (Float.Model.pack (ofSignificand (signOf negative) m q))

section Pack
variable {m : Nat} {q : Int} {s : Sign}

theorem pack_normal (h : InRange m q) (full : 2 ^ 52 ≤ m) (positive : 0 < m) :
    UnpackedFloat.pack .binary64 (.finite s m q positive) =
      packComponents .binary64 s (BitVec.ofNat 11 (q + 1075).toNat) (BitVec.ofNat 52 m) := by
  have log : m.log2 = 52 := (Nat.log2_eq_iff positive.ne').2 ⟨full, h.small⟩
  have most := h.most
  have biased : (q + (Format.exponentBias .binary64 : Nat) + (52 : Nat)).toNat =
      (q + 1075).toNat := by
    change (q + 1023 + 52).toNat = _
    omega
  have bound : ¬ 2 ^ 11 ≤ (q + 1075).toNat + 1 := by omega
  simp only [UnpackedFloat.pack, biased, log, bound, if_false]
  rfl

theorem pack_subnormal (small : m < 2 ^ 52) (positive : 0 < m) :
    UnpackedFloat.pack .binary64 (.finite s m (-1074) positive) =
      packComponents .binary64 s 0 (BitVec.ofNat 52 m) := by
  have log : m.log2 < 52 := (Nat.log2_lt positive.ne').2 small
  have other : ¬ m.log2 + 1 = Format.mantissaBits .binary64 := by
    change ¬ m.log2 + 1 = 53
    omega
  simp only [UnpackedFloat.pack, other, if_false]
  rfl

theorem ofSignificand_of_pos (s : Sign) (positive : 0 < m) (q : Int) :
    ofSignificand s m q = .finite s m q positive := dif_neg positive.ne'

theorem toNat_one_append (mantissa : BitVec 52) :
    (1#1 ++ mantissa).toNat = 2 ^ 52 + mantissa.toNat := by
  rw [BitVec.toNat_append, ← Nat.shiftLeft_add_eq_or_of_lt mantissa.isLt]
  rfl

/-- What bits stand for, by their three fields. -/
theorem unpack_eq (b : BitVec 64) :
    let sign := Sign.ofBitVec (@unpackSign .binary64 b)
    let exponent := (@unpackExponent .binary64 b).toNat
    let mantissa := (@unpackMantissa .binary64 b).toNat
    UnpackedFloat.unpack .binary64 b =
      if exponent = 2047 then if mantissa = 0 then .infinity sign else .notANumber
      else if exponent = 0 then ofSignificand sign mantissa (-1074)
      else ofSignificand sign (2 ^ 52 + mantissa) (exponent - 1075) := by
  intro sign exponent mantissa
  have last : @unpackExponent .binary64 b = -1#11 ↔ exponent = 2047 :=
    BitVec.toNat_inj.symm
  have first : @unpackExponent .binary64 b = 0#11 ↔ exponent = 0 := BitVec.toNat_inj.symm
  have zero_iff : @unpackMantissa .binary64 b = 0#52 ↔ mantissa = 0 := BitVec.toNat_inj.symm
  unfold UnpackedFloat.unpack
  dsimp only
  by_cases infinite : exponent = 2047
  · rw [if_pos (last.2 infinite), if_pos infinite]
    by_cases zero : mantissa = 0
    · rw [if_pos (zero_iff.2 zero), if_pos zero]
    · rw [if_neg (mt zero_iff.1 zero), if_neg zero]
  · rw [if_neg (mt last.1 infinite), if_neg infinite]
    by_cases small : exponent = 0
    · rw [if_pos (first.2 small), if_pos small]
      by_cases zero : mantissa = 0
      · rw [dif_pos (zero_iff.2 zero), ofSignificand, dif_pos zero]
      · rw [dif_neg (mt zero_iff.1 zero), ofSignificand, dif_neg zero, UnpackedFloat.finite.injEq]
        refine ⟨rfl, rfl, ?_⟩
        change (exponent : Int) - (1023 + 52) + 1 = -1074
        omega
    · rw [if_neg (mt first.1 small), if_neg small, ofSignificand_of_pos _ (by omega),
        UnpackedFloat.finite.injEq]
      refine ⟨rfl, toNat_one_append _, ?_⟩
      change (exponent : Int) - (1023 + 52) = exponent - 1075
      omega

theorem unpack_pack_finite (h : InRange m q) (positive : 0 < m) :
    UnpackedFloat.unpack .binary64 (UnpackedFloat.pack .binary64 (.finite s m q positive)) =
      .finite s m q positive := by
  have least := h.least
  have most := h.most
  have small := h.small
  by_cases full : 2 ^ 52 ≤ m
  · rw [pack_normal h full, unpack_eq]
    simp only [unpackExponent_packComponents, unpackMantissa_packComponents,
      unpackSign_packComponents, Sign.ofBitVec_toBitVec, BitVec.toNat_ofNat]
    rw [Nat.mod_eq_of_lt (show (q + 1075).toNat < 2 ^ 11 by omega), if_neg (by omega),
      if_neg (by omega), ← ofSignificand_of_pos]
    congr 1 <;> omega
  · have other : q = -1074 := h.full.resolve_left full
    subst other
    rw [pack_subnormal (by omega), unpack_eq]
    simp only [unpackExponent_packComponents, unpackMantissa_packComponents,
      unpackSign_packComponents, Sign.ofBitVec_toBitVec, BitVec.toNat_ofNat]
    rw [Nat.mod_eq_of_lt (show m < 2 ^ 52 by omega), ofSignificand_of_pos _ positive]
    rfl

end Pack

section Parts
variable {x : Float} {m : Nat} {q : Int} {negative : Bool}

def ofParts : Parts → UnpackedFloat
  | .notANumber => .notANumber
  | .infinite negative => .infinity (signOf negative)
  | .finite negative m q => ofSignificand (signOf negative) m q

theorem sign_of_bits (b : BitVec 64) :
    Sign.ofBitVec (@unpackSign .binary64 b) =
      signOf (decide (Nat.pow 2 63 ≤ b.toNat)) := by
  have bit : (@unpackSign .binary64 b).toNat = b.toNat / 2 ^ 63 := by
    rw [unpackSign_def, BitVec.extractLsb'_toNat, Nat.shiftRight_eq_div_pow]
    exact Nat.mod_eq_of_lt (Nat.div_lt_of_lt_mul b.isLt)
  have below := b.isLt
  by_cases negative : Nat.pow 2 63 ≤ b.toNat
  · have top : 2 ^ 63 ≤ b.toNat := negative
    have : @unpackSign .binary64 b = 1#1 := by
      apply BitVec.eq_of_toNat_eq
      rw [bit]
      change _ = 1
      omega
    rw [this, decide_eq_true negative]
    rfl
  · have top : ¬ 2 ^ 63 ≤ b.toNat := negative
    have : @unpackSign .binary64 b = 0#1 := by
      apply BitVec.eq_of_toNat_eq
      rw [bit]
      change _ = 0
      omega
    rw [this, decide_eq_false negative]
    rfl

/-- The parts that a float is taken apart into are what its bits stand for. -/
theorem unpack_eq_ofParts (b : BitVec 64) :
    UnpackedFloat.unpack .binary64 b = ofParts (Parts.ofBits b.toNat) := by
  have exponent : (@unpackExponent .binary64 b).toNat =
      b.toNat / Nat.pow 2 52 % Nat.pow 2 11 := by
    rw [unpackExponent_def, BitVec.extractLsb'_toNat, Nat.shiftRight_eq_div_pow]
    rfl
  have mantissa : (@unpackMantissa .binary64 b).toNat = b.toNat % Nat.pow 2 52 := by
    rw [unpackMantissa_def, BitVec.extractLsb'_toNat, Nat.shiftRight_zero]
    rfl
  rw [unpack_eq, Parts.ofBits, sign_of_bits, exponent, mantissa]
  split
  · split <;> rfl
  · split <;> rfl

theorem inRange_of_ofBits {bits : Nat} (h : Parts.ofBits bits = .finite negative m q) :
    InRange m q := by
  have exponent : bits / Nat.pow 2 52 % Nat.pow 2 11 < Nat.pow 2 11 := Nat.mod_lt _ (by decide)
  have fraction : bits % Nat.pow 2 52 < Nat.pow 2 52 := Nat.mod_lt _ (by decide)
  unfold Parts.ofBits at h
  generalize bits / Nat.pow 2 52 % Nat.pow 2 11 = e at h exponent
  generalize bits % Nat.pow 2 52 = f at h fraction
  change e < 2 ^ 11 at exponent
  change f < 2 ^ 52 at fraction
  dsimp only at h
  split at h
  · split at h <;> cases h
  · split at h
    · cases h
      exact ⟨⟨by omega, le_rfl, .inr rfl⟩, by decide⟩
    · cases h
      have sum : Nat.pow 2 52 + f = 2 ^ 52 + f := rfl
      exact ⟨⟨by omega, by omega, .inl (by omega)⟩, by omega⟩

theorem unpack_toModel (x : Float) : x.toModel.unpack = ofParts (Parts.of x) :=
  unpack_eq_ofParts _

theorem eq_ofParts (x : Float) : x = .ofModel (Float.Model.pack (ofParts (Parts.of x))) := by
  rw [← Float.toBits_inj, ← UInt64.toBitVec_inj, ← unpack_toModel]
  exact (pack_unpack_of_valid x.toModel.valid).symm

/-- A float is the one of its sign, significand and exponent, and these are in range. -/
theorem eq_floatOf (h : Parts.of x = .finite negative m q) :
    x = floatOf negative m q ∧ InRange m q := by
  constructor
  · rw [eq_ofParts x, h]
    rfl
  · exact inRange_of_ofBits h

theorem unpack_floatOf (h : InRange m q) :
    (floatOf negative m q).toModel.unpack = ofSignificand (signOf negative) m q := by
  change UnpackedFloat.unpack .binary64 (UnpackedFloat.pack .binary64 _) = _
  obtain rfl | positive := Nat.eq_zero_or_pos m
  · exact unpack_packedZero
  · rw [ofSignificand_of_pos _ positive]
    exact unpack_pack_finite h positive

theorem neg_floatOf (h : InRange m q) : -floatOf false m q = floatOf true m q := by
  change Float.ofModel (Float.Model.pack (UnpackedFloat.neg (floatOf false m q).toModel.unpack)) = _
  rw [unpack_floatOf h, floatOf]
  congr 2
  unfold ofSignificand
  split <;> rfl

end Parts
end DependencyAudit
