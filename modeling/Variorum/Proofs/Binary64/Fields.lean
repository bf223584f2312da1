import Variorum.Proofs.Binary64.Rounding
import Variorum.Binary64

/-!
# The parts of a finite float

A finite float is a zero or a canonical significand with its exponent, and neither packing nor taking the
magnitude loses any of it.
-/

open Float.Model
open Float.Model.UnpackedFloat

namespace Variorum.Binary64

/-! ## Packing -/

section

variable {s : Sign} {m : ℕ} {q : ℤ}

theorem toNat_one_append (b : BitVec 52) : (1#1 ++ b).toNat = 2 ^ 52 + b.toNat := by
  rw [BitVec.toNat_append, ← Nat.shiftLeft_add_eq_or_of_lt b.isLt, Nat.shiftLeft_eq]
  rfl

theorem ofNat_ne {w a : ℕ} {b : BitVec w} (ha : a < 2 ^ w) (h : a ≠ b.toNat) :
    BitVec.ofNat w a ≠ b := by
  rintro rfl
  rw [BitVec.toNat_ofNat, Nat.mod_eq_of_lt ha] at h
  exact h rfl

theorem unpack_pack_subnormal (hpos : 0 < m) (hlow : m < 2 ^ 52) :
    UnpackedFloat.unpack .binary64 (UnpackedFloat.pack .binary64 (.finite s m (-1074) hpos)) =
      .finite s m (-1074) hpos := by
  have hzero : m ≠ 0 := Nat.ne_of_gt hpos
  have hlog : m.log2 < 52 := (Nat.log2_lt hzero).2 hlow
  have hpack : UnpackedFloat.pack .binary64 (.finite s m (-1074) hpos) =
      packComponents .binary64 s 0#11 (BitVec.ofNat 52 m) := by
    have hbits : m.log2 + 1 ≠ 53 := by omega
    rw [UnpackedFloat.pack]
    exact (if_neg (by decide)).trans (if_neg hbits)
  have hfraction : BitVec.ofNat 52 m ≠ 0#52 := ofNat_ne hlow hzero
  have hm : (BitVec.ofNat 52 m).toNat = m := by
    rw [BitVec.toNat_ofNat]
    exact Nat.mod_eq_of_lt hlow
  rw [hpack, UnpackedFloat.unpack]
  simp only [unpackMantissa_packComponents, unpackExponent_packComponents, unpackSign_packComponents,
    Sign.ofBitVec_toBitVec]
  rw [if_neg (by decide), if_pos trivial, dif_neg hfraction]
  simp only [hm]
  rfl

theorem unpack_pack_normal (hpos : 0 < m) (hlow : 2 ^ 52 ≤ m) (hhigh : m < 2 ^ 53) (hleast : -1074 ≤ q)
    (hq : q ≤ 971) :
    UnpackedFloat.unpack .binary64 (UnpackedFloat.pack .binary64 (.finite s m q hpos)) =
      .finite s m q hpos := by
  have hlog : m.log2 = 52 := (Nat.log2_eq_iff (Nat.ne_of_gt hpos)).2 ⟨hlow, hhigh⟩
  obtain ⟨b, hb⟩ : ∃ b, b = (q + (1023 : ℕ) + (52 : ℕ)).toNat := ⟨_, rfl⟩
  have hq' : q = b - ((1023 : ℕ) + (52 : ℕ)) := by omega
  have hpack : UnpackedFloat.pack .binary64 (.finite s m q hpos) =
      packComponents .binary64 s (BitVec.ofNat 11 b) (BitVec.ofNat 52 m) := by
    rw [hb]
    show (if 2 ^ 11 ≤ (q + (1023 : ℕ) + (52 : ℕ)).toNat + 1 then _
      else if m.log2 + 1 = 53 then _ else _) = _
    rw [if_neg (by omega), if_pos (by omega)]
    rfl
  have hsmall : b < 2 ^ 11 := by omega
  have hfinite : BitVec.ofNat 11 b ≠ -1#11 := ofNat_ne hsmall (by show b ≠ 2047; omega)
  have hnormal : BitVec.ofNat 11 b ≠ 0#11 := ofNat_ne hsmall (by show b ≠ 0; omega)
  have hfield : (BitVec.ofNat 11 b).toNat = b := by
    rw [BitVec.toNat_ofNat]
    exact Nat.mod_eq_of_lt hsmall
  have hm : (1#1 ++ BitVec.ofNat 52 m).toNat = m := by
    rw [toNat_one_append, BitVec.toNat_ofNat]
    omega
  rw [hpack, UnpackedFloat.unpack]
  simp only [unpackMantissa_packComponents, unpackExponent_packComponents, unpackSign_packComponents,
    Sign.ofBitVec_toBitVec]
  rw [if_neg hfinite, if_neg hnormal]
  show UnpackedFloat.finite s _ (_ - (((1023 : ℕ) : ℤ) + (52 : ℕ))) _ = _
  simp only [hm, hfield, ← hq']

/-- Packing loses nothing of a float that is not too large. -/
theorem Canonical.unpack_pack (h : Canonical m q) (hq : q ≤ 971) :
    UnpackedFloat.unpack .binary64 (UnpackedFloat.pack .binary64 (.finite s m q h.pos)) =
      .finite s m q h.pos := by
  rcases Nat.lt_or_ge m (2 ^ 52) with hlow | hlow
  · obtain rfl : q = -1074 := h.normal.resolve_left (Nat.not_le.2 hlow)
    exact unpack_pack_subnormal h.pos hlow
  · exact unpack_pack_normal h.pos hlow h.lt h.least hq

end

/-! ## Fields -/

variable {x : Float}

/-- The sign of a float that is a number. -/
def sign (x : Float) : Sign :=
  if isNegative x then .negative else .positive

theorem toNat_unpackExponent :
    (@unpackExponent .binary64 x.toModel.toBits.toBitVec).toNat = exponentField x := by
  rw [unpackExponent_def, BitVec.extractLsb'_toNat, Nat.shiftRight_eq_div_pow]
  rfl

theorem toNat_unpackMantissa :
    (@unpackMantissa .binary64 x.toModel.toBits.toBitVec).toNat = fractionField x := by
  rw [unpackMantissa_def, BitVec.extractLsb'_toNat, Nat.shiftRight_zero]
  rfl

theorem ofBitVec_unpackSign :
    Sign.ofBitVec (@unpackSign .binary64 x.toModel.toBits.toBitVec) = sign x := by
  have hbit : (@unpackSign .binary64 x.toModel.toBits.toBitVec).toNat =
      x.toBits.toNat / 2 ^ 63 % 2 := by
    rw [unpackSign_def, BitVec.extractLsb'_toNat, Nat.shiftRight_eq_div_pow]
    rfl
  have hlt : x.toBits.toNat < 2 ^ 64 := x.toBits.toNat_lt
  have hone : @unpackSign .binary64 x.toModel.toBits.toBitVec = 0#1 ↔ ¬(signBit ≤ x.toBits.toNat) := by
    rw [← BitVec.toNat_inj, hbit]
    show x.toBits.toNat / 2 ^ 63 % 2 = 0 ↔ ¬(2 ^ 63 ≤ x.toBits.toNat)
    omega
  unfold Sign.ofBitVec sign isNegative
  by_cases h : signBit ≤ x.toBits.toNat
  · rw [if_neg (by rw [hone]; exact not_not_intro h), if_pos (decide_eq_true h)]
  · rw [if_pos (hone.2 h), if_neg (by simpa using h)]

/-- What a finite float is unpacked to. -/
inductive Parts (x : Float) : Prop
  | zero (hsignificand : significand x = 0) (hunpack : x.toModel.unpack = .zero (sign x)) : Parts x
  | finite (hcanonical : Canonical (significand x) (exponent x)) (hlarge : exponent x ≤ 971)
      (hunpack : x.toModel.unpack = .finite (sign x) (significand x) (exponent x) hcanonical.pos) : Parts x

theorem parts (h : x.isFinite = true) : Parts x := by
  have hexponent := toNat_unpackExponent (x := x)
  have hfraction := toNat_unpackMantissa (x := x)
  have hfield : exponentField x < 2 ^ 11 := Nat.mod_lt _ (by decide)
  have hlow : fractionField x < 2 ^ 52 := Nat.mod_lt _ (by decide)
  obtain ⟨u, hu⟩ : ∃ u, x.toModel.unpack = u := ⟨_, rfl⟩
  have hfinite : u.isFinite = true := hu ▸ h
  have hcases : UnpackedFloat.unpack .binary64 x.toModel.toBits.toBitVec = u := hu
  rw [UnpackedFloat.unpack, ofBitVec_unpackSign] at hcases
  dsimp only at hcases
  split at hcases
  -- The largest exponent field is that of the floats that are no numbers.
  · split at hcases <;> rw [← hcases] at hfinite <;> cases hfinite
  next hall =>
    have hlarge : exponentField x ≠ 0x7FF := fun heq => hall (BitVec.toNat_inj.1 (hexponent.trans heq))
    split at hcases
    next hnone =>
      have hzero : exponentField x = 0 := by rw [← hexponent, hnone]; rfl
      have hm : significand x = fractionField x := if_pos hzero
      have hq : exponent x = -1074 := by unfold exponent; rw [hzero]; rfl
      split at hcases
      next hnothing =>
        refine .zero ?_ (hu.trans hcases.symm)
        rw [hm, ← hfraction, hnothing]
        rfl
      next hsome =>
        have hpos : fractionField x ≠ 0 := fun heq => hsome (BitVec.toNat_inj.1 (hfraction.trans heq))
        refine .finite ⟨by omega, by omega, by omega, .inr hq⟩ (by omega) ?_
        refine hu.trans (hcases.symm.trans ?_)
        rw [UnpackedFloat.finite.injEq]
        refine ⟨rfl, hfraction.trans hm.symm, ?_⟩
        rw [hq, hnone]
        rfl
    next hsome =>
      have hpos : exponentField x ≠ 0 := fun heq => hsome (BitVec.toNat_inj.1 (hexponent.trans heq))
      have hm : significand x = 2 ^ 52 + fractionField x := if_neg hpos
      have hq : exponent x = exponentField x - 1075 := by
        unfold exponent
        omega
      refine .finite ⟨by omega, by omega, by omega, .inl (by omega)⟩ (by omega) ?_
      refine hu.trans (hcases.symm.trans ?_)
      rw [UnpackedFloat.finite.injEq]
      refine ⟨rfl, ?_, ?_⟩
      · rw [toNat_one_append, hfraction, hm]
      · rw [hexponent, hq]
        rfl

theorem isNaN_eq_false (h : x.isFinite = true) : x.isNaN = false := by
  show x.toModel.unpack.isNaN = false
  cases parts h with
  | zero _ hunpack =>
    rw [hunpack]
    rfl
  | finite _ _ hunpack =>
    rw [hunpack]
    rfl

/-! ## Magnitudes -/

/-- The positive float of a significand and an exponent. -/
def Canonical.toFloat (h : Canonical m q) : Float :=
  .ofModel (Float.Model.pack (.finite .positive m q h.pos))

theorem ofModel_pack_unpack (x : Float) : Float.ofModel (Float.Model.pack x.toModel.unpack) = x :=
  x.ofBits_toBits

/-- The magnitude of a float is a float of the same significand and exponent. -/
theorem abs_of_significand_zero (h : x.isFinite = true) (hzero : significand x = 0) :
    x.abs = .ofModel (Float.Model.pack (.zero .positive)) := by
  cases parts h with
  | zero _ hunpack =>
    show Float.ofModel (Float.Model.pack x.toModel.unpack.abs) = _
    rw [hunpack]
    rfl
  | finite hcanonical _ _ => exact absurd hzero (Nat.ne_of_gt hcanonical.pos)

theorem canonical_of_significand (h : x.isFinite = true) (hzero : significand x ≠ 0) :
    Canonical (significand x) (exponent x) ∧ exponent x ≤ 971 := by
  cases parts h with
  | zero hsignificand _ => exact absurd hsignificand hzero
  | finite hcanonical hlarge _ => exact ⟨hcanonical, hlarge⟩

theorem abs_of_significand (h : x.isFinite = true) (hc : Canonical (significand x) (exponent x)) :
    x.abs = hc.toFloat := by
  cases parts h with
  | zero hsignificand _ => exact absurd hsignificand (Nat.ne_of_gt hc.pos)
  | finite _ _ hunpack =>
    show Float.ofModel (Float.Model.pack x.toModel.unpack.abs) = _
    rw [hunpack]
    rfl

theorem unpack_abs (h : x.isFinite = true) : x.abs.toModel.unpack = x.toModel.unpack.abs := by
  show UnpackedFloat.unpack .binary64 (UnpackedFloat.pack .binary64 x.toModel.unpack.abs) = _
  cases parts h with
  | zero _ hunpack =>
    rw [hunpack]
    exact unpack_packedZero
  | finite hcanonical hlarge hunpack =>
    rw [hunpack]
    exact hcanonical.unpack_pack hlarge

theorem isFinite_abs (h : x.isFinite = true) : x.abs.isFinite = true := by
  show x.abs.toModel.unpack.isFinite = true
  rw [unpack_abs h]
  cases parts h with
  | zero _ hunpack =>
    rw [hunpack]
    rfl
  | finite _ _ hunpack =>
    rw [hunpack]
    rfl

theorem signed_abs_unpack (h : x.isFinite = true) :
    (if isNegative x then x.toModel.unpack.abs.neg else x.toModel.unpack.abs) = x.toModel.unpack := by
  cases parts h with
  | zero _ hunpack =>
    rw [hunpack]
    unfold sign
    cases isNegative x <;> rfl
  | finite _ _ hunpack =>
    rw [hunpack]
    unfold sign
    cases isNegative x <;> rfl

/-- A finite float is its magnitude with its sign. -/
theorem signed_abs (h : x.isFinite = true) : (if isNegative x then -x.abs else x.abs) = x := by
  have hsigned := signed_abs_unpack h
  cases hnegative : isNegative x with
  | false =>
    rw [hnegative] at hsigned
    calc x.abs
      _ = .ofModel (Float.Model.pack x.toModel.unpack.abs) := rfl
      _ = .ofModel (Float.Model.pack x.toModel.unpack) := congrArg _ (congrArg _ hsigned)
      _ = x := ofModel_pack_unpack x
  | true =>
    rw [hnegative] at hsigned
    calc -x.abs
      _ = .ofModel (Float.Model.pack x.abs.toModel.unpack.neg) := rfl
      _ = .ofModel (Float.Model.pack x.toModel.unpack.abs.neg) := by rw [unpack_abs h]
      _ = .ofModel (Float.Model.pack x.toModel.unpack) := congrArg _ (congrArg _ hsigned)
      _ = x := ofModel_pack_unpack x

end Variorum.Binary64
