import Variorum.Proofs.Binary64.Fields
import Variorum.Proofs.Binary64.Nearest

/-!
# Integers as floats

A machine integer is converted to the float of its nearest integer of fifty-three bits, and floats of
integers are compared as these integers are.
-/

open Float.Model
open Float.Model.UnpackedFloat

namespace Variorum.Binary64

/-! ## Quotients of powers of two -/

theorem nearest_quotient (n k : Nat) : Nearest (n / 2 ^ k) (quotient n k) := by
  have hextends := extends_quotient (n := n) (Nat.two_pow_pos k)
  rw [Nat.cast_pow, Nat.cast_ofNat] at hextends
  have hrounded : (ExtendedMantissa.ofMantissaAndAccuracy (n / 2 ^ k)
      (accuracyOfFraction (n % 2 ^ k) (2 ^ k))).roundedMantissa = quotient n k := by
    unfold accuracyOfFraction quotient
    split
    next hzero =>
      rw [if_pos (by omega)]
      rfl
    next =>
      rcases Nat.lt_trichotomy (2 * (n % 2 ^ k)) (2 ^ k) with hlt | heq | hgt
      · rw [Nat.compare_eq_lt.2 hlt, if_pos hlt]
        rfl
      · rw [Nat.compare_eq_eq.2 heq, if_neg (by omega), if_pos heq]
        rfl
      · rw [Nat.compare_eq_gt.2 hgt, if_neg (by omega), if_neg (by omega)]
        rfl
  exact hrounded ▸ hextends.nearest

/-! ## Floats of integers -/

/-- An unpacked float that is an integer `n`. If it is not zero, its significand has fifty-three bits. -/
inductive Represents : UnpackedFloat → Int → Prop
  | zero {s : Sign} : Represents (.zero s) 0
  | finite {s : Sign} {m t n : Nat} {hpos : 0 < m} (hlow : 2 ^ 52 ≤ m) (hhigh : m < 2 ^ 53) (ht : t ≤ 64)
      (hvalue : m * 2 ^ t = n * 2 ^ 52) : Represents (.finite s m (t - 52) hpos) (s.apply n)

theorem targetExponent_eq (m : Nat) {e : Int} (h : -1022 ≤ m.log2 + e) :
    Format.binary64.targetExponent (totalExponent m e) = m.log2 + e - 52 := by
  show max ((m.log2 : Int) + 1 + e - 53) (-1074) = _
  omega

theorem log2_mul_two_pow {n : Nat} (hn : n ≠ 0) (j : Nat) : (n * 2 ^ j).log2 = n.log2 + j := by
  have hpos : 0 < 2 ^ j := Nat.two_pow_pos j
  rw [Nat.log2_eq_iff (Nat.mul_ne_zero hn (Nat.ne_of_gt hpos))]
  constructor
  · rw [Nat.pow_add]
    exact Nat.mul_le_mul_right _ (Nat.log2_self_le hn)
  · rw [Nat.add_right_comm, Nat.pow_add]
    exact Nat.mul_lt_mul_of_pos_right Nat.lt_log2_self hpos

section

variable {m k r : Nat} {e : Int}

theorem fits_of_log2 (hlog : m.log2 = k + 52) (he : -1022 ≤ m.log2 + e) : Fits (m * 2 ^ e) (e + k) := by
  have hpos : (0 : ℚ) < 2 ^ e := zpow_pos two_pos e
  have hexp : ∀ a : Nat, (2 : ℚ) ^ a * 2 ^ (e + k) = (2 ^ (a + k) : Nat) * 2 ^ e := by
    intro a
    rw [zpow_add₀ two_ne_zero, zpow_natCast]
    push_cast
    ring
  have hzero : m ≠ 0 := by
    rintro rfl
    rw [Nat.log2_zero] at hlog
    omega
  have hlow : 2 ^ (52 + k) ≤ m := (Nat.le_log2 hzero).1 (by omega)
  have hhigh : m < 2 ^ (53 + k) := (Nat.log2_lt hzero).1 (by omega)
  refine ⟨by omega, ?_, .inl ?_⟩ <;> rw [hexp]
  · exact mul_lt_mul_of_pos_right (by exact_mod_cast hhigh) hpos
  · exact mul_le_mul_of_nonneg_right (by exact_mod_cast hlow) hpos.le

theorem roundWithAccuracy_eq (s : Sign) (hlog : m.log2 = k + 52) (he : -1022 ≤ m.log2 + e)
    (hr : quotient m k = r) (hlow : 2 ^ 52 ≤ r) (hhigh : r < 2 ^ 53) :
    roundWithAccuracy .binary64 s m e .exact = .finite s r (e + k) (by omega) := by
  have hcancel : (m : ℚ) * 2 ^ e / 2 ^ e = m := mul_div_cancel_right₀ _ (zpow_ne_zero _ two_ne_zero)
  refine (fits_of_log2 hlog he).roundWithAccuracy s ?_ (by omega) ?_ ⟨by omega, hhigh, by omega, .inl hlow⟩
  · rw [hcancel]
    exact extends_exact m
  · rw [div_two_zpow_add, hcancel, ← hr]
    exact nearest_quotient m k

/-- Where rounding makes a significand too long by a bit, it is shifted once again. -/
theorem roundWithAccuracy_carry (s : Sign) (hlog : m.log2 = k + 52) (he : -1022 ≤ m.log2 + e)
    (hr : quotient m k = 2 ^ 53) :
    roundWithAccuracy .binary64 s m e .exact = .finite s (2 ^ 52) (e + k + 1) (by decide) := by
  have hcancel : (m : ℚ) * 2 ^ e / 2 ^ e = m := mul_div_cancel_right₀ _ (zpow_ne_zero _ two_ne_zero)
  refine (fits_of_log2 hlog he).roundWithAccuracy_carry s ?_ (by omega) ?_
  · rw [hcancel]
    exact extends_exact m
  · rw [div_two_zpow_add, hcancel, ← hr]
    exact nearest_quotient m k

end

/-- Rounding a number that is not too large gives its nearest integer, also if the number was shifted. -/
theorem represents_roundWithAccuracy (s : Sign) {n j : Nat} (hn : n ≠ 0) (hlarge : n.log2 < 64)
    (hshift : 52 ≤ n.log2 + j) :
    Represents (roundWithAccuracy .binary64 s (n * 2 ^ j) (-j) .exact) (s.apply (nearestNat n)) := by
  obtain ⟨k, hk⟩ : ∃ k, n.log2 + j = k + 52 := ⟨n.log2 + j - 52, by omega⟩
  have hlog := log2_mul_two_pow hn j
  have hzero : n * 2 ^ j ≠ 0 := Nat.mul_ne_zero hn (Nat.ne_of_gt (Nat.two_pow_pos j))
  have hlow : 2 ^ 52 ≤ quotient (n * 2 ^ j) k := by
    refine le_quotient_mul ?_
    rw [Nat.add_comm, ← hk, ← hlog]
    exact Nat.log2_self_le hzero
  have hhigh : quotient (n * 2 ^ j) k ≤ 2 ^ 53 := by
    refine quotient_mul_le ?_
    rw [show 53 + k = (n * 2 ^ j).log2 + 1 by omega]
    exact Nat.lt_log2_self
  have hvalue := quotient_shifted hk
  have hexponent : -(j : Int) + k = n.log2 - 52 := by omega
  rcases Nat.lt_or_eq_of_le hhigh with hlt | heq
  · rw [roundWithAccuracy_eq s (by omega) (by omega) rfl hlow hlt]
    simp only [hexponent]
    exact .finite hlow hlt (by omega) hvalue
  · have hcarry : (n.log2 : Int) - 52 + 1 = ((n.log2 + 1 : Nat) : Int) - 52 := by omega
    rw [roundWithAccuracy_carry s (by omega) (by omega) heq]
    simp only [hexponent, hcarry]
    refine .finite (Nat.le_refl _) (by decide) (by omega) ?_
    rw [← hvalue, heq, Nat.pow_succ 2 n.log2]
    omega

/-- Packing loses nothing of an integer. -/
theorem Represents.unpack_pack {x : UnpackedFloat} {i : Int} (h : Represents x i) :
    UnpackedFloat.unpack .binary64 (UnpackedFloat.pack .binary64 x) = x := by
  cases h with
  | @zero s => cases s <;> rfl
  | @finite s m t n hpos hlow hhigh ht _ =>
      have hcanonical : Canonical m (t - 52) := ⟨hpos, hhigh, by omega, .inl hlow⟩
      exact hcanonical.unpack_pack (by omega)

/-! ## Order -/

theorem compare_mul {k : Nat} (hk : 0 < k) (n n' : Nat) : compare (n * k) (n' * k) = compare n n' := by
  rcases Nat.lt_trichotomy n n' with hlt | rfl | hgt
  · rw [Nat.compare_eq_lt.2 hlt, Nat.compare_eq_lt.2 (Nat.mul_lt_mul_of_pos_right hlt hk)]
  · rw [Nat.compare_eq_eq.2 rfl, Nat.compare_eq_eq.2 rfl]
  · rw [Nat.compare_eq_gt.2 hgt, Nat.compare_eq_gt.2 (Nat.mul_lt_mul_of_pos_right hgt hk)]

theorem mul_two_pow_lt {m m' t t' : Nat} (hhigh : m < 2 ^ 53) (hlow : 2 ^ 52 ≤ m') (ht : t < t') :
    m * 2 ^ t < m' * 2 ^ t' :=
  calc m * 2 ^ t
    _ < 2 ^ 53 * 2 ^ t := Nat.mul_lt_mul_of_pos_right hhigh (Nat.two_pow_pos t)
    _ = 2 ^ 52 * 2 ^ (t + 1) := by rw [Nat.pow_succ 2 t]; omega
    _ ≤ 2 ^ 52 * 2 ^ t' := Nat.mul_le_mul_left _ (Nat.pow_le_pow_right (by decide) ht)
    _ ≤ m' * 2 ^ t' := Nat.mul_le_mul_right _ hlow

/-- Of significands of the same length the exponents decide first. -/
theorem compare_significands {m m' t t' : Nat} (hlow : 2 ^ 52 ≤ m) (hhigh : m < 2 ^ 53)
    (hlow' : 2 ^ 52 ≤ m') (hhigh' : m' < 2 ^ 53) :
    (compare ((t : Int) - 52) (t' - 52)).then (compare m m') = compare (m * 2 ^ t) (m' * 2 ^ t') := by
  rcases Nat.lt_trichotomy t t' with hlt | rfl | hgt
  · rw [Int.compare_eq_lt.2 (by omega), Nat.compare_eq_lt.2 (mul_two_pow_lt hhigh hlow' hlt)]
    rfl
  · rw [Int.compare_eq_eq.2 rfl, compare_mul (Nat.two_pow_pos t)]
    rfl
  · rw [Int.compare_eq_gt.2 (by omega), Nat.compare_eq_gt.2 (mul_two_pow_lt hhigh' hlow hgt)]
    rfl

/-- Floats of integers are compared as the integers. -/
theorem Represents.le_iff {x y : UnpackedFloat} {i j : Int} (hx : Represents x i) (hy : Represents y j) :
    UnpackedFloat.le x y = true ↔ i ≤ j := by
  have hpositive : ∀ {m t n : Nat}, 0 < m → m * 2 ^ t = n * 2 ^ 52 → 0 < n := by
    intro m t n hm hvalue
    have hpos : 0 < m * 2 ^ t := Nat.mul_pos hm (Nat.two_pow_pos t)
    omega
  cases hx with
  | zero =>
      cases hy with
      | zero => exact iff_of_true rfl (Int.le_refl 0)
      | @finite s m t n hpos _ _ _ hvalue =>
          have hn := hpositive hpos hvalue
          cases s with
          | negative => exact iff_of_false nofun (by show ¬(0 : Int) ≤ -n; omega)
          | positive => exact iff_of_true rfl (by show (0 : Int) ≤ n; omega)
  | @finite s m t n hpos hlow hhigh _ hvalue =>
      have hn := hpositive hpos hvalue
      cases hy with
      | zero =>
          cases s with
          | negative => exact iff_of_true rfl (by show -(n : Int) ≤ 0; omega)
          | positive => exact iff_of_false nofun (by show ¬(n : Int) ≤ 0; omega)
      | @finite s' m' t' n' hpos' hlow' hhigh' _ hvalue' =>
          have hn' := hpositive hpos' hvalue'
          have hcompare : (compare ((t : Int) - 52) (t' - 52)).then (compare m m') = compare n n' := by
            rw [compare_significands hlow hhigh hlow' hhigh', hvalue, hvalue', compare_mul (by decide)]
          cases s with
          | negative =>
              cases s' with
              | negative =>
                  show ((compare ((t : Int) - 52) (t' - 52)).then (compare m m')).swap.isLE = true ↔
                    -(n : Int) ≤ -n'
                  rw [hcompare, Nat.compare_swap, Nat.isLE_compare]
                  omega
              | positive => exact iff_of_true rfl (by show -(n : Int) ≤ n'; omega)
          | positive =>
              cases s' with
              | negative => exact iff_of_false nofun (by show ¬(n : Int) ≤ -n'; omega)
              | positive =>
                  show ((compare ((t : Int) - 52) (t' - 52)).then (compare m m')).isLE = true ↔
                    (n : Int) ≤ n'
                  rw [hcompare, Nat.isLE_compare]
                  omega

/-! ## Conversion -/

theorem Represents.neg {x : UnpackedFloat} {i : Int} (h : Represents x i) :
    Represents (UnpackedFloat.neg x) (-i) := by
  cases h with
  | zero => exact .zero
  | @finite s m t n hpos hlow hhigh ht hvalue =>
      have hneg : Represents (.finite (-s) m (t - 52) hpos) ((-s).apply n) :=
        .finite hlow hhigh ht hvalue
      cases s with
      | negative =>
        show Represents _ (- -(n : Int))
        rwa [Int.neg_neg]
      | positive => exact hneg

/-- The float is the integer. -/
def IsInteger (x : Float) (i : Int) : Prop :=
  Represents x.toModel.unpack i

theorem isInteger_pack {x : UnpackedFloat} {i : Int} (h : Represents x i) :
    IsInteger (.ofModel (Float.Model.pack x)) i := by
  show Represents (UnpackedFloat.unpack .binary64 (UnpackedFloat.pack .binary64 x)) i
  rwa [h.unpack_pack]

/-- A natural number is first shifted to the exponent of its float, and then rounded. -/
theorem represents_normalize {n : Nat} (h : n.log2 < 64) :
    Represents (UnpackedFloat.normalize .binary64 n 0 .positive) (nearestNat n) := by
  rcases Nat.eq_zero_or_pos n with rfl | hpos
  · exact .zero
  · have hshift : (-Format.binary64.targetExponent (totalExponent n 0)).toNat = 52 - n.log2 := by
      rw [targetExponent_eq n (by omega)]
      omega
    have hround : UnpackedFloat.normalize .binary64 n 0 .positive =
        roundWithAccuracy .binary64 .positive (n * 2 ^ (52 - n.log2)) (-(52 - n.log2 : Nat)) .exact := by
      rw [UnpackedFloat.normalize, Int.compare_eq_gt.2 (by omega)]
      show UnpackedFloat.round .binary64 .positive n 0 = _
      rw [UnpackedFloat.round, decreaseExponent]
      simp only [Int.zero_sub, hshift, Nat.shiftLeft_eq]
    rw [hround]
    exact represents_roundWithAccuracy .positive (Nat.ne_of_gt hpos) h (by omega)

theorem log2_lt_of_lt {n : Nat} (h : n < 2 ^ 64) : n.log2 < 64 := by
  rcases Nat.eq_zero_or_pos n with rfl | hpos
  · decide
  · exact (Nat.log2_lt (Nat.ne_of_gt hpos)).2 h

theorem isInteger_toFloat (n : UInt64) : IsInteger n.toFloat (nearestNat n.toNat) :=
  isInteger_pack (represents_normalize (log2_lt_of_lt n.toNat_lt))

/-- An integer is multiplied by one without a loss. -/
theorem Represents.mul_one {x : UnpackedFloat} {i : Int} (h : Represents x i) :
    Represents (UnpackedFloat.mul .binary64 x (.finite .positive (2 ^ 52) (-52) (by decide))) i := by
  cases h with
  | zero => exact .zero
  | @finite s m t n hpos hlow hhigh ht hvalue =>
      have hlog : (m * 2 ^ 52).log2 = 52 + 52 := by
        rw [log2_mul_two_pow (by omega), (Nat.log2_eq_iff (by omega)).2 ⟨hlow, hhigh⟩]
      have hquotient : quotient (m * 2 ^ 52) 52 = m := by
        rw [← Nat.zero_add 52, quotient_mul, quotient_zero]
      have hsign : s * .positive = s := by cases s <;> rfl
      have hexponent : (t : Int) - 52 + -52 + (52 : Nat) = t - 52 := by omega
      show Represents (roundWithAccuracy .binary64 (s * .positive) (m * 2 ^ 52) ((t : Int) - 52 + -52) .exact) _
      rw [roundWithAccuracy_eq _ hlog (by omega) hquotient hlow hhigh]
      simp only [hsign, hexponent]
      exact .finite hlow hhigh ht hvalue

theorem ofScientific_zero {n : Nat} (h : n ≠ 0) :
    UnpackedFloat.ofScientific .binary64 n (Int.ofNat 0) =
      roundWithAccuracy .binary64 .positive (n * 2 ^ 53) (-(53 : Nat)) .exact := by
  have hten : 10 ^ (Int.ofNat 0).toNat = 1 := rfl
  have hbits : Format.binary64.mantissaBits = 53 := rfl
  have hsign : Sign.positive * Sign.positive = .positive := rfl
  have hlarge : ¬(Int.ofNat 0 < -(2 ^ 11 + (n.log2 : Int))) := by
    show ¬((0 : Int) < _)
    omega
  rw [UnpackedFloat.ofScientific, dif_neg h, if_neg (by decide), if_neg hlarge, if_pos (by decide),
    UnpackedFloat.mul, hten, hsign, hbits, Nat.mul_one, Nat.shiftLeft_eq, Int.add_zero]

theorem isInteger_ofNat {n : Nat} (h : n < 2 ^ 64) : IsInteger (Float.ofNat n) (nearestNat n) := by
  show IsInteger (Float.ofScientific n false 0) (nearestNat n)
  rw [Float.ofScientific]
  split
  · have hn : n.toUInt64.toNat = n := Nat.mod_eq_of_lt h
    have hfloat := isInteger_toFloat n.toUInt64
    have hone : Float.exactlyRepresentablePowersOfTen[0].toModel.unpack =
        .finite .positive (2 ^ 52) (-52) (by decide) := rfl
    rw [hn] at hfloat
    refine isInteger_pack ?_
    rw [hone]
    exact hfloat.mul_one
  · rename_i hlarge
    have hzero : n ≠ 0 := by
      rintro rfl
      exact hlarge (by decide)
    refine isInteger_pack ?_
    rw [if_neg (by decide), ofScientific_zero hzero]
    exact represents_roundWithAccuracy .positive hzero (log2_lt_of_lt h) (by omega)

/-- A machine integer becomes the float of its nearest integer. -/
theorem isInteger_ofInt {i : Int} (h : i.natAbs < 2 ^ 64) : IsInteger (Float.ofInt i) (nearest i) := by
  cases i with
  | ofNat n => exact isInteger_ofNat h
  | negSucc n =>
      have hnearest : nearest (Int.negSucc n) = -nearestNat (n + 1) := if_pos (Int.negSucc_lt_zero n)
      rw [hnearest]
      exact isInteger_pack (isInteger_ofNat h).neg

theorem ofInt_le_ofInt {i j : Int} (hi : i.natAbs < 2 ^ 64) (hj : j.natAbs < 2 ^ 64) :
    Float.ofInt i ≤ Float.ofInt j ↔ nearest i ≤ nearest j := by
  have hle : Float.ofInt i ≤ Float.ofInt j ↔
      UnpackedFloat.le (Float.ofInt i).toModel.unpack (Float.ofInt j).toModel.unpack = true := by
    show Float.le _ _ = true ↔ _
    rw [Float.le, decide_eq_true_iff]
    rfl
  rw [hle, (isInteger_ofInt hi).le_iff (isInteger_ofInt hj)]

end Variorum.Binary64
