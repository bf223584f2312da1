import Variorum.Proofs.Binary64.Conversion
import Variorum.Proofs.Binary64.Fields
import Variorum.Proofs.Decimal.Digits

/-!
# Decimals and the floats nearest to them

A decimal that is nearer to a float than to any other is read as that float.
-/

open Float.Model
open Float.Model.UnpackedFloat

namespace Variorum.Binary64

variable {x y : Float} {v w : ℚ} {d m n : ℕ} {e q : ℤ}

/-- The float is the number, which is positive and has fifty-three bits. -/
def IsExactly (x : Float) (v : ℚ) : Prop :=
  ∃ (n : ℕ) (e : ℤ) (hpos : 0 < n),
    x.toModel.unpack = .finite .positive n e hpos ∧ 2 ^ 52 ≤ n ∧ (n : ℚ) * 2 ^ e = v

theorem isExactly_toFloat (hpos : 0 < d) (hlt : d < 2 ^ 53) : IsExactly d.toUInt64.toFloat d := by
  have hword : d.toUInt64.toNat = d := Nat.mod_eq_of_lt (by omega)
  have hrepresents := isInteger_toFloat d.toUInt64
  rw [hword, nearestNat_of_lt hlt, IsInteger] at hrepresents
  generalize hi : (d : ℤ) = i at hrepresents
  unfold IsExactly
  generalize d.toUInt64.toFloat.toModel.unpack = u at hrepresents
  cases hrepresents with
  | zero => omega
  | @finite s m t n hm hlow _ _ hvalue =>
    cases s with
    | negative => exact absurd hi (by show (d : ℤ) ≠ -n; omega)
    | positive =>
      obtain rfl : d = n := Int.ofNat_inj.1 hi
      refine ⟨m, t - 52, hm, rfl, hlow, ?_⟩
      have hvalue' : (m : ℚ) * 2 ^ t = d * 2 ^ 52 := by exact_mod_cast hvalue
      rw [zpow_sub₀ two_ne_zero, zpow_natCast, ← mul_div_assoc, hvalue']
      exact mul_div_cancel_right₀ _ (by norm_num)

/-- The powers of ten that are floats. -/
theorem isExactly_powerOfTen (h : n < 23) :
    IsExactly Float.exactlyRepresentablePowersOfTen[n] (10 ^ n) := by
  have htable : ∀ i : Fin 23,
      let x := Float.exactlyRepresentablePowersOfTen[i]
      x.isFinite = true ∧ isNegative x = false ∧ 2 ^ 52 ≤ significand x ∧ -52 ≤ exponent x ∧
        significand x * 2 ^ (exponent x + 52).toNat = 10 ^ i.val * 2 ^ 52 := by
    decide +kernel
  obtain ⟨hfinite, hsign, hlong, hexponent, hvalue⟩ := htable ⟨n, h⟩
  simp only [Fin.getElem_fin] at hfinite hsign hlong hexponent hvalue
  generalize Float.exactlyRepresentablePowersOfTen[n] = x at *
  cases parts hfinite with
  | zero hsignificand _ => omega
  | finite hc _ hunpack =>
    have hpositive : sign x = .positive := if_neg (by rw [hsign]; exact Bool.false_ne_true)
    rw [hpositive] at hunpack
    obtain ⟨k, hk⟩ : ∃ k : ℕ, exponent x = k - 52 := ⟨(exponent x + 52).toNat, by omega⟩
    refine ⟨_, _, hc.pos, hunpack, hlong, ?_⟩
    rw [hk, sub_add_cancel, Int.toNat_natCast] at hvalue
    have hvalue' : (significand x : ℚ) * 2 ^ k = 10 ^ n * 2 ^ 52 := by exact_mod_cast hvalue
    rw [hk, zpow_sub₀ two_ne_zero, zpow_natCast, ← mul_div_assoc, hvalue']
    exact mul_div_cancel_right₀ _ (by norm_num)

theorem RoundsTo.mul_floats (hx : IsExactly x v) (hy : IsExactly y w) (h : RoundsTo (v * w) m q)
    (hc : Canonical m q) : x * y = hc.toFloat := by
  obtain ⟨n, e, hn, hxu, hlong, rfl⟩ := hx
  obtain ⟨n', e', hn', hyu, hlong', rfl⟩ := hy
  have hlong'' : 2 ^ 52 ≤ n * n' := Nat.le_trans hlong (Nat.le_mul_of_pos_right n hn')
  show Float.ofModel (Float.Model.pack (UnpackedFloat.mul .binary64 x.toModel.unpack y.toModel.unpack)) = _
  rw [hxu, hyu, h.mul hc hn hn' hlong'']
  rfl

theorem RoundsTo.div_floats (hx : IsExactly x v) (hy : IsExactly y w) (h : RoundsTo (v / w) m q)
    (hc : Canonical m q) : x / y = hc.toFloat := by
  obtain ⟨n, e, hn, hxu, -, rfl⟩ := hx
  obtain ⟨n', e', hn', hyu, -, rfl⟩ := hy
  show Float.ofModel (Float.Model.pack (UnpackedFloat.div .binary64 x.toModel.unpack y.toModel.unpack)) = _
  rw [hxu, hyu, h.div hc hn hn']
  rfl

theorem RoundsTo.ofScientific_nat {k : ℕ} (hd : 0 < d) (hlarge : k ≤ 2048)
    (h : RoundsTo (d * 10 ^ (k : ℤ)) m q) (hc : Canonical m q) :
    UnpackedFloat.ofScientific .binary64 d k = .finite .positive m q hc.pos := by
  have hvalue : ((d * 2 ^ 53 : ℕ) : ℚ) * 2 ^ (-(53 : ℕ) : ℤ) * ((10 ^ k : ℕ) * 2 ^ (0 : ℤ)) =
      d * 10 ^ (k : ℤ) := by
    rw [zpow_zero, mul_one, zpow_natCast, zpow_neg, zpow_natCast, Nat.cast_mul, Nat.cast_pow, Nat.cast_pow]
    field_simp
    norm_num
  have hlong : 2 ^ 52 ≤ d * 2 ^ 53 * 10 ^ k :=
    calc 2 ^ 52
      _ ≤ 1 * 2 ^ 53 := by decide
      _ ≤ d * 2 ^ 53 := Nat.mul_le_mul_right _ hd
      _ ≤ d * 2 ^ 53 * 10 ^ k := Nat.le_mul_of_pos_right _ (Nat.pow_pos (by decide))
  have hbounded : ¬(k : ℤ) > 2 ^ 11 := by omega
  have hnear : ¬(k : ℤ) < -((2 ^ 11 : ℤ) + d.log2) := by omega
  have hshift : d <<< Format.binary64.mantissaBits = d * 2 ^ 53 := Nat.shiftLeft_eq d 53
  rw [← hvalue] at h
  rw [UnpackedFloat.ofScientific, dif_neg (Nat.ne_of_gt hd), if_neg hbounded, if_neg hnear,
    if_pos (Int.natCast_nonneg k)]
  simp only [hshift]
  exact h.mul hc (Nat.mul_pos hd (by decide)) (Nat.pow_pos (by decide)) hlong

theorem RoundsTo.ofScientific_neg {k : ℕ} (hd : 0 < d) (hk : 0 < k) (hsmall : k ≤ 2048)
    (h : RoundsTo (d * 10 ^ (-k : ℤ)) m q) (hc : Canonical m q) :
    UnpackedFloat.ofScientific .binary64 d (-k) = .finite .positive m q hc.pos := by
  have hvalue : (d : ℚ) * 2 ^ (0 : ℤ) / ((10 ^ k : ℕ) * 2 ^ (0 : ℤ)) = d * 10 ^ (-k : ℤ) := by
    rw [zpow_zero, mul_one, mul_one, zpow_neg, zpow_natCast]
    push_cast
    rfl
  have hbounded : ¬(-k : ℤ) > 2 ^ 11 := by omega
  have hnear : ¬(-k : ℤ) < -((2 ^ 11 : ℤ) + d.log2) := by omega
  have hneg : ¬(0 : ℤ) ≤ -k := by omega
  rw [← hvalue] at h
  rw [UnpackedFloat.ofScientific, dif_neg (Nat.ne_of_gt hd), if_neg hbounded, if_neg hnear, if_neg hneg]
  simp only [neg_neg, Int.toNat_natCast]
  exact h.div hc hd (Nat.pow_pos (by decide))

theorem RoundsTo.ofScientific_model (hd : 0 < d) (hsmall : -2048 ≤ e) (hlarge : e ≤ 2048)
    (h : RoundsTo (d * 10 ^ e) m q) (hc : Canonical m q) :
    UnpackedFloat.ofScientific .binary64 d e = .finite .positive m q hc.pos := by
  obtain ⟨k, rfl | rfl⟩ := Int.eq_nat_or_neg e
  · exact h.ofScientific_nat hd (by omega) hc
  · rcases Nat.eq_zero_or_pos k with rfl | hk
    · rw [Nat.cast_zero, neg_zero] at h ⊢
      exact RoundsTo.ofScientific_nat (k := 0) hd (by omega) h hc
    · exact h.ofScientific_neg hd hk (by omega) hc

/-- A decimal is read as the float that it is nearest to. -/
theorem RoundsTo.ofScientific (hd : 0 < d) (hsmall : -2048 ≤ e) (hlarge : e ≤ 2048)
    (h : RoundsTo (d * 10 ^ e) m q) (hc : Canonical m q) :
    Float.ofScientific d (e < 0) e.natAbs = hc.toFloat := by
  rw [Float.ofScientific]
  split
  next hfast =>
    have hd' := isExactly_toFloat hd hfast.1
    have hten := isExactly_powerOfTen (show e.natAbs < 23 by omega)
    rcases lt_or_ge e 0 with hneg | hpos
    · rw [if_pos (decide_eq_true hneg)]
      refine RoundsTo.div_floats hd' hten ?_ hc
      have hvalue : (10 : ℚ) ^ e = (10 ^ e.natAbs)⁻¹ := by
        rw [← zpow_natCast, ← zpow_neg, Int.ofNat_natAbs_of_nonpos hneg.le, neg_neg]
      rw [div_eq_mul_inv, ← hvalue]
      exact h
    · rw [if_neg (by simpa using hpos)]
      refine RoundsTo.mul_floats hd' hten ?_ hc
      have hvalue : (10 : ℚ) ^ e = 10 ^ e.natAbs := by
        rw [← zpow_natCast, Int.natAbs_of_nonneg hpos]
      rw [← hvalue]
      exact h
  next hslow =>
    have he : (if decide (e < 0) = true then Int.negOfNat e.natAbs else Int.ofNat e.natAbs) = e := by
      split
      next hneg =>
        have hle : e ≤ 0 := (of_decide_eq_true hneg).le
        rw [Int.negOfNat_eq, Int.ofNat_eq_natCast, Int.ofNat_natAbs_of_nonpos hle, neg_neg]
      next hpos => exact Int.natAbs_of_nonneg (not_lt.1 fun hneg => hpos (decide_eq_true hneg))
    rw [he]
    show Float.ofModel (Float.Model.pack (UnpackedFloat.ofScientific .binary64 d e)) = _
    rw [h.ofScientific_model hd hsmall hlarge hc]
    rfl

end Variorum.Binary64

namespace Variorum.Decimal

open Binary64

variable {d m : ℕ} {e q : ℤ}

/-! ## Powers of ten and of two -/

theorem ten_pow_le_two_pow {a b : ℕ} (h : 10 * a ≤ 3 * b) : 10 ^ a ≤ 2 ^ b := by
  rw [← Nat.pow_le_pow_iff_left three_ne_zero, ← Nat.pow_mul, ← Nat.pow_mul]
  calc 10 ^ (a * 3)
    _ = (10 ^ 3) ^ a := by rw [Nat.mul_comm, Nat.pow_mul]
    _ ≤ (2 ^ 10) ^ a := Nat.pow_le_pow_left (by decide) a
    _ = 2 ^ (10 * a) := (Nat.pow_mul ..).symm
    _ ≤ 2 ^ (b * 3) := Nat.pow_le_pow_right two_pos (by omega)

theorem two_pow_le_ten_pow {a b : ℕ} (h : 10 * a ≤ 33 * b) : 2 ^ a ≤ 10 ^ b := by
  rw [← Nat.pow_le_pow_iff_left (show 10 ≠ 0 by decide), ← Nat.pow_mul, ← Nat.pow_mul]
  calc 2 ^ (a * 10)
    _ ≤ 2 ^ (33 * b) := Nat.pow_le_pow_right two_pos (by omega)
    _ = (2 ^ 33) ^ b := Nat.pow_mul ..
    _ ≤ (10 ^ 10) ^ b := Nat.pow_le_pow_left (by decide) b
    _ = 10 ^ (b * 10) := by rw [Nat.mul_comm, Nat.pow_mul]

/-! ## The guards of the reader -/

/-- A decimal that is near to a float has its first digit not too far behind the point. -/
theorem le_length_add_exponent (h : RoundsTo (d * 10 ^ e) m q) (hc : Canonical m q) :
    -326 ≤ (Nat.toDigits 10 d).length + e := by
  have hten : (0 : ℚ) < 10 ^ e := zpow_pos (by norm_num) e
  have hhigh := lt_ten_pow_length d
  have hm : (1 : ℚ) ≤ m := by exact_mod_cast hc.pos
  generalize (Nat.toDigits 10 d).length = k at *
  have hleast : (10 : ℚ) ^ (-(326 : ℕ) : ℤ) ≤ 2 ^ (-(1075 : ℕ) : ℤ) := by
    rw [zpow_neg, zpow_neg, zpow_natCast, zpow_natCast]
    refine inv_anti₀ (by positivity) ?_
    exact_mod_cast two_pow_le_ten_pow (a := 1075) (b := 326) (by decide)
  have hlt : (10 : ℚ) ^ (-(326 : ℕ) : ℤ) < 10 ^ (k + e) :=
    calc (10 : ℚ) ^ (-(326 : ℕ) : ℤ)
      _ ≤ 2 ^ (-(1075 : ℕ) : ℤ) := hleast
      _ = 1 / 2 * 2 ^ (-1074 : ℤ) := by
        rw [one_div, ← zpow_neg_one, ← zpow_add₀ two_ne_zero]
        rfl
      _ ≤ d * 10 ^ e / 2 ^ q * 2 ^ q := by
        refine mul_le_mul ?_ (zpow_le_zpow_right₀ one_le_two hc.least) (by positivity) (by positivity)
        linarith [h.nearest.below]
      _ = d * 10 ^ e := div_mul_cancel₀ _ (zpow_ne_zero _ two_ne_zero)
      _ < 10 ^ k * 10 ^ e := mul_lt_mul_of_pos_right (by exact_mod_cast hhigh) hten
      _ = 10 ^ (k + e) := by rw [zpow_add₀ (by norm_num), zpow_natCast]
  exact ((zpow_lt_zpow_iff_right₀ (by norm_num : (1 : ℚ) < 10)).1 hlt).le

/-- A decimal that is near to a float has not too many digits before the point. -/
theorem length_add_exponent_le (hd : 0 < d) (h : RoundsTo (d * 10 ^ e) m q) (hc : Canonical m q)
    (hq : q ≤ 971) : (Nat.toDigits 10 d).length + e ≤ 312 := by
  have hten : (0 : ℚ) < 10 ^ e := zpow_pos (by norm_num) e
  have hlow := ten_pow_length_le hd
  have hm : (m : ℚ) + 1 ≤ 2 ^ 53 := by exact_mod_cast hc.lt
  have hle : (10 : ℚ) ^ (((Nat.toDigits 10 d).length - 1 : ℕ) + e) ≤ 10 ^ ((311 : ℕ) : ℤ) :=
    calc (10 : ℚ) ^ (((Nat.toDigits 10 d).length - 1 : ℕ) + e)
      _ = 10 ^ ((Nat.toDigits 10 d).length - 1) * 10 ^ e := by rw [zpow_add₀ (by norm_num), zpow_natCast]
      _ ≤ d * 10 ^ e := mul_le_mul_of_nonneg_right (by exact_mod_cast hlow) hten.le
      _ = d * 10 ^ e / 2 ^ q * 2 ^ q := (div_mul_cancel₀ _ (zpow_ne_zero _ two_ne_zero)).symm
      _ ≤ 2 ^ 53 * 2 ^ (971 : ℤ) := by
        refine mul_le_mul ?_ (zpow_le_zpow_right₀ one_le_two hq) (by positivity) (by positivity)
        linarith [h.nearest.above]
      _ = 2 ^ (1024 : ℕ) := by
        rw [← zpow_natCast, ← zpow_add₀ two_ne_zero, ← zpow_natCast]
        rfl
      _ ≤ 10 ^ (311 : ℕ) := by exact_mod_cast two_pow_le_ten_pow (a := 1024) (b := 311) (by decide)
      _ = 10 ^ ((311 : ℕ) : ℤ) := (zpow_natCast _ _).symm
  have hexp := (zpow_le_zpow_iff_right₀ (by norm_num : (1 : ℚ) < 10)).1 hle
  omega

/-- A decimal is read as the float that it is nearest to. -/
theorem nearestFloat_of_roundsTo (hd : 0 < d) (he : -2048 ≤ e) (h : RoundsTo (d * 10 ^ e) m q)
    (hc : Canonical m q) (hq : q ≤ 971) : nearestFloat d e = hc.toFloat := by
  have hlow := le_length_add_exponent h hc
  have hhigh := length_add_exponent_le hd h hc hq
  have hlength := Nat.length_toDigits_pos (b := 10) (n := d)
  have hnear : ¬(d = 0 ∨ (Nat.toDigits 10 d).length + e < -400) := by omega
  have hfar : ¬(400 < (Nat.toDigits 10 d).length + e) := by omega
  rw [nearestFloat, if_neg hnear, if_neg hfar]
  exact h.ofScientific hd he (by omega) hc

end Variorum.Decimal
