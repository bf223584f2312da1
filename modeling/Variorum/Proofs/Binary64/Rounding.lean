import Mathlib

/-!
# Rounding to the nearest float

The significand of a quotient or a product is shifted until fifty-three bits are left; two bits keep what was
lost. A number that lies nearest to a float is rounded to that float.
-/

open Float.Model
open Float.Model.UnpackedFloat

namespace Variorum.Binary64

/-! ## What a shifted significand stands for -/

/-- The number `w` is the significand, or lies behind it on the side of the half that the two bits say. -/
def Extends : ExtendedMantissa → ℚ → Prop
  | ⟨m, false, false⟩, w => w = m
  | ⟨m, false, true⟩, w => m < w ∧ w < m + 1 / 2
  | ⟨m, true, false⟩, w => w = m + 1 / 2
  | ⟨m, true, true⟩, w => m + 1 / 2 < w ∧ w < m + 1

/-- The natural number `r` is nearest to `w`, and even if another one is as near. -/
structure Nearest (w : ℚ) (r : ℕ) : Prop where
  above : w ≤ r + 1 / 2
  below : r ≤ w + 1 / 2
  even_of_above : w = r + 1 / 2 → r % 2 = 0
  even_of_below : r = w + 1 / 2 → r % 2 = 0

variable {em : ExtendedMantissa} {w : ℚ} {r r' : ℕ}

theorem Nearest.unique (h : Nearest w r) (h' : Nearest w r') : r = r' := by
  have hle : ∀ {a b : ℕ}, Nearest w a → Nearest w b → a ≤ b := by
    intro a b ha hb
    by_contra hlt
    have hsucc : (b : ℚ) + 1 ≤ a := by exact_mod_cast Nat.lt_of_not_le hlt
    -- The number is half way between the two, and both were even.
    have hhigh : (b : ℚ) + 1 = a := by linarith [ha.below, hb.above]
    have hb' := hb.even_of_above (by linarith [ha.below, hb.above])
    have ha' := ha.even_of_below (by linarith [ha.below, hb.above])
    have hnat : b + 1 = a := by exact_mod_cast hhigh
    omega
  exact Nat.le_antisymm (hle h h') (hle h' h)

theorem Extends.bounds (h : Extends em w) : (em.mantissa : ℚ) ≤ w ∧ w < em.mantissa + 1 := by
  obtain ⟨m, round, sticky⟩ := em
  cases round <;> cases sticky <;> simp only [Extends] at h <;> constructor <;> dsimp only <;> linarith

theorem Extends.nearest (h : Extends em w) : Nearest w em.roundedMantissa := by
  obtain ⟨m, round, sticky⟩ := em
  cases round with
  | false =>
    have hrounded : (ExtendedMantissa.mk m false sticky).roundedMantissa = m := by cases sticky <;> rfl
    rw [hrounded]
    cases sticky <;> simp only [Extends] at h <;>
      exact ⟨by linarith, by linarith, fun he => by exfalso; linarith, fun he => by exfalso; linarith⟩
  | true =>
    cases sticky with
    | false =>
      have hrounded : (ExtendedMantissa.mk m true false).roundedMantissa = m + m % 2 := rfl
      simp only [Extends] at h
      rw [hrounded, h]
      rcases Nat.mod_two_eq_zero_or_one m with hm | hm
      · rw [hm]
        exact ⟨by simp, by simp; linarith, fun _ => by omega, fun _ => by omega⟩
      · rw [hm]
        exact ⟨by push_cast; linarith, by push_cast; linarith, fun _ => by omega, fun _ => by omega⟩
    | true =>
      have hrounded : (ExtendedMantissa.mk m true true).roundedMantissa = m + 1 := rfl
      simp only [Extends] at h
      rw [hrounded]
      refine ⟨?_, ?_, fun he => ?_, fun he => ?_⟩
      · push_cast
        linarith
      · push_cast
        linarith
      · push_cast at he
        linarith
      · push_cast at he
        linarith

theorem Extends.shiftRightOne (h : Extends em w) : Extends em.shiftRightOne (w / 2) := by
  obtain ⟨m, round, sticky⟩ := em
  have hbit : m % 2 = (m % 2 != 0).toNat := by
    rcases Nat.mod_two_eq_zero_or_one m with hm | hm <;> rw [hm] <;> rfl
  have hdiv : (2 : ℚ) * (m / 2 : ℕ) + (m % 2 != 0).toNat = m := by
    rw [← hbit]
    exact_mod_cast Nat.div_add_mod m 2
  show Extends ⟨m / 2, m % 2 != 0, round || sticky⟩ (w / 2)
  generalize (m % 2 != 0) = bit at hdiv
  cases bit <;> cases round <;> cases sticky <;>
    simp only [Extends, Bool.or_false, Bool.or_true, Bool.toNat_false, Bool.toNat_true] at h hdiv ⊢ <;>
    push_cast at hdiv
  all_goals first | linarith | constructor <;> linarith

theorem Extends.shiftRight (h : Extends em w) (k : ℕ) : Extends (em >>> k) (w / 2 ^ k) := by
  induction k with
  | zero =>
    rw [pow_zero, div_one]
    exact h
  | succ k ih =>
    rw [pow_succ, ← div_div]
    exact ih.shiftRightOne

/-! ## The exponent of a rounded number -/

/-- The number has fifty-three bits in units of `2 ^ t`, or fewer if `t` is the least exponent. -/
structure Fits (v : ℚ) (t : ℤ) : Prop where
  least : -1074 ≤ t
  lt : v < 2 ^ 53 * 2 ^ t
  normal : 2 ^ 52 * 2 ^ t ≤ v ∨ t = -1074

variable {v : ℚ} {n m k : ℕ} {e t q : ℤ} {acc : Accuracy}

theorem mantissa_ofMantissaAndAccuracy : (ExtendedMantissa.ofMantissaAndAccuracy n acc).mantissa = n := by
  cases acc with
  | exact => rfl
  | inexact o => cases o <;> rfl

theorem div_two_zpow_add (v : ℚ) (e : ℤ) (k : ℕ) : v / 2 ^ (e + k) = v / 2 ^ e / 2 ^ k := by
  rw [zpow_add₀ two_ne_zero, zpow_natCast, div_div]

theorem Fits.targetExponent_eq (h : Fits v (e + k)) (hlow : n ≤ v / 2 ^ e) (hhigh : v / 2 ^ e < n + 1) :
    Format.binary64.targetExponent (totalExponent n e) = e + k := by
  have hpos : (0 : ℚ) < 2 ^ e := zpow_pos two_pos e
  have hexp : ∀ a : ℕ, (2 : ℚ) ^ a * 2 ^ (e + k) = (2 ^ (a + k) : ℕ) * 2 ^ e := by
    intro a
    rw [zpow_add₀ two_ne_zero, zpow_natCast]
    push_cast
    ring
  have hlt : n < 2 ^ (53 + k) := by
    have hv := h.lt
    rw [hexp, ← div_lt_iff₀ hpos] at hv
    exact_mod_cast lt_of_le_of_lt hlow hv
  have hlog : n.log2 < 53 + k := by
    rcases Nat.eq_zero_or_pos n with rfl | hn
    · simp
    · exact (Nat.log2_lt (Nat.ne_of_gt hn)).2 hlt
  have hleast := h.least
  show max ((n.log2 : ℤ) + 1 + e - 53) (-1074) = e + k
  rcases h.normal with hnormal | hleast'
  · have hle : 2 ^ (52 + k) ≤ n := by
      rw [hexp, ← le_div_iff₀ hpos] at hnormal
      have hsucc : 2 ^ (52 + k) < n + 1 := by exact_mod_cast lt_of_le_of_lt hnormal hhigh
      omega
    have hlog' : 52 + k ≤ n.log2 := (Nat.le_log2 (by have := Nat.two_pow_pos (52 + k); omega)).2 hle
    omega
  · omega

theorem Fits.shiftToTargetExponent (h : Fits v t) (hv : Extends (.ofMantissaAndAccuracy n acc) (v / 2 ^ e))
    (he : e ≤ t) :
    ∃ em, shiftToTargetExponent .binary64 n e acc = (em, t) ∧ Extends em (v / 2 ^ t) := by
  obtain ⟨k, rfl⟩ : ∃ k : ℕ, t = e + k := ⟨(t - e).toNat, by omega⟩
  have hbounds := hv.bounds
  rw [mantissa_ofMantissaAndAccuracy] at hbounds
  have htarget := h.targetExponent_eq hbounds.1 hbounds.2
  have hshift : (e + k - e).toNat = k := by omega
  refine ⟨_, ?_, div_two_zpow_add v e k ▸ hv.shiftRight k⟩
  rw [UnpackedFloat.shiftToTargetExponent, htarget, shiftToExponent]
  simp only [hshift]

/-! ## Floats and the numbers nearest to them -/

/-- The number `m · 2 ^ q` is a positive float, if `q` is not too large. -/
structure Canonical (m : ℕ) (q : ℤ) : Prop where
  pos : 0 < m
  lt : m < 2 ^ 53
  least : -1074 ≤ q
  normal : 2 ^ 52 ≤ m ∨ q = -1074

/-- The number is nearest to the float `m · 2 ^ q`. Floats below a power of two are closer to each other. -/
structure RoundsTo (v : ℚ) (m : ℕ) (q : ℤ) : Prop where
  nearest : Nearest (v / 2 ^ q) m
  narrow : m = 2 ^ 52 → -1074 < q → m - 1 / 4 ≤ v / 2 ^ q

theorem nearest_self (m : ℕ) : Nearest m m :=
  ⟨by linarith, by linarith, fun he => by exfalso; linarith, fun he => by exfalso; linarith⟩

theorem roundsTo_self : RoundsTo (m * 2 ^ q) m q := by
  have hcancel : (m : ℚ) * 2 ^ q / 2 ^ q = m := mul_div_cancel_right₀ _ (zpow_ne_zero _ two_ne_zero)
  refine ⟨?_, fun _ _ => ?_⟩ <;> rw [hcancel]
  · exact nearest_self m
  · linarith

theorem Canonical.shiftToTargetExponent (h : Canonical m q) :
    UnpackedFloat.shiftToTargetExponent .binary64 m q .exact = (⟨m, false, false⟩, q) := by
  have hpos : (0 : ℚ) < 2 ^ q := zpow_pos two_pos q
  have hfits : Fits (m * 2 ^ q) (q + (0 : ℕ)) := by
    rw [Nat.cast_zero, add_zero]
    refine ⟨h.least, ?_, h.normal.imp_left fun hnormal => ?_⟩
    · exact mul_lt_mul_of_pos_right (by exact_mod_cast h.lt) hpos
    · exact mul_le_mul_of_nonneg_right (by exact_mod_cast hnormal) hpos.le
  have hvalue : (m : ℚ) * 2 ^ q / 2 ^ q = m := mul_div_cancel_right₀ _ hpos.ne'
  have htarget := hfits.targetExponent_eq (by rw [hvalue]) (by rw [hvalue]; linarith)
  rw [Nat.cast_zero, add_zero] at htarget
  rw [UnpackedFloat.shiftToTargetExponent, htarget, shiftToExponent]
  simp only [sub_self, Int.toNat_zero, Nat.cast_zero, add_zero]
  rfl

/-- A significand that rounding made too long by a bit is shifted once again. -/
theorem shiftToTargetExponent_carry (h : -1074 ≤ q) :
    UnpackedFloat.shiftToTargetExponent .binary64 (2 ^ 53) q .exact =
      (⟨2 ^ 52, false, false⟩, q + 1) := by
  have htarget : Format.binary64.targetExponent (totalExponent (2 ^ 53) q) = q + 1 := by
    show max ((Nat.log2 (2 ^ 53) : ℤ) + 1 + q - 53) (-1074) = q + 1
    rw [Nat.log2_two_pow]
    omega
  have hshift : (q + 1 - q).toNat = 1 := by omega
  rw [UnpackedFloat.shiftToTargetExponent, htarget, shiftToExponent]
  simp only [hshift]
  rfl

section

variable (s : Sign)

theorem Fits.roundWithAccuracy (h : Fits v q) (hv : Extends (.ofMantissaAndAccuracy n acc) (v / 2 ^ e))
    (he : e ≤ q) (hm : Nearest (v / 2 ^ q) m) (hc : Canonical m q) :
    UnpackedFloat.roundWithAccuracy .binary64 s n e acc = .finite s m q hc.pos := by
  obtain ⟨em, hshift, hem⟩ := h.shiftToTargetExponent hv he
  rw [UnpackedFloat.roundWithAccuracy, hshift]
  dsimp only
  rw [hem.nearest.unique hm, hc.shiftToTargetExponent]
  exact dif_neg (Nat.ne_of_gt hc.pos)

theorem Fits.roundWithAccuracy_carry (h : Fits v q)
    (hv : Extends (.ofMantissaAndAccuracy n acc) (v / 2 ^ e)) (he : e ≤ q)
    (hm : Nearest (v / 2 ^ q) (2 ^ 53)) :
    UnpackedFloat.roundWithAccuracy .binary64 s n e acc = .finite s (2 ^ 52) (q + 1) (by decide) := by
  obtain ⟨em, hshift, hem⟩ := h.shiftToTargetExponent hv he
  rw [UnpackedFloat.roundWithAccuracy, hshift]
  dsimp only
  rw [hem.nearest.unique hm, shiftToTargetExponent_carry h.least]
  rfl

theorem Fits.le_of_accurate (h : Fits v t) (he : e ≤ -1074 ∨ 2 ^ (e + 52) ≤ v) : e ≤ t := by
  rcases he with he | he
  · exact le_trans he h.least
  · have hlt : (2 : ℚ) ^ (e + 52) < 2 ^ (t + 53) := by
      refine lt_of_le_of_lt he (lt_of_lt_of_le h.lt ?_)
      rw [zpow_add₀ two_ne_zero, mul_comm]
      rfl
    have hexp := (zpow_lt_zpow_iff_right₀ one_lt_two).1 hlt
    omega

/-- A number just below a power of two has the exponent of the floats there, and rounding carries. -/
theorem RoundsTo.carries (h : RoundsTo v m q) (hc : Canonical m q) (hlow : v < 2 ^ 52 * 2 ^ q)
    (hq : q ≠ -1074) : ∃ t, q = t + 1 ∧ m = 2 ^ 52 ∧ Fits v t ∧ Nearest (v / 2 ^ t) (2 ^ 53) := by
  have hlt : v / 2 ^ q < 2 ^ 52 := (div_lt_iff₀ (zpow_pos two_pos q)).2 hlow
  have hleast := hc.least
  obtain rfl : m = 2 ^ 52 := by
    have hle : 2 ^ 52 ≤ m := hc.normal.resolve_right hq
    have hrat : (m : ℚ) < 2 ^ 52 + 1 := by linarith [h.nearest.below]
    have hge : m < 2 ^ 52 + 1 := by exact_mod_cast hrat
    omega
  have hnarrow := h.narrow rfl (by omega)
  obtain ⟨t, rfl⟩ : ∃ t, q = t + 1 := ⟨q - 1, by omega⟩
  have ht : (0 : ℚ) < 2 ^ t := zpow_pos two_pos t
  have hdouble : v / 2 ^ t = 2 * (v / 2 ^ (t + 1)) := by
    rw [zpow_add₀ two_ne_zero, zpow_one]
    field_simp
  push_cast at hnarrow
  refine ⟨t, rfl, rfl, ⟨by omega, ?_, .inl ?_⟩, ⟨?_, ?_, fun _ => by decide, fun _ => by decide⟩⟩
  · rw [← div_lt_iff₀ ht]
    linarith
  · rw [← le_div_iff₀ ht]
    linarith
  · push_cast
    linarith
  · push_cast
    linarith

/-- A number is rounded to the float that it is nearest to, if it is given with bits enough. -/
theorem RoundsTo.roundWithAccuracy (h : RoundsTo v m q) (hc : Canonical m q)
    (hv : Extends (.ofMantissaAndAccuracy n acc) (v / 2 ^ e)) (he : e ≤ -1074 ∨ 2 ^ (e + 52) ≤ v) :
    UnpackedFloat.roundWithAccuracy .binary64 s n e acc = .finite s m q hc.pos := by
  by_cases hlow : 2 ^ 52 * 2 ^ q ≤ v ∨ q = -1074
  · have hfits : Fits v q := by
      have hm : (m : ℚ) + 1 ≤ 2 ^ 53 := by exact_mod_cast hc.lt
      refine ⟨hc.least, ?_, hlow⟩
      rw [← div_lt_iff₀ (zpow_pos two_pos q)]
      linarith [h.nearest.above]
    exact hfits.roundWithAccuracy s hv (hfits.le_of_accurate he) h.nearest hc
  · obtain ⟨hlt, hq⟩ := not_or.1 hlow
    obtain ⟨t, rfl, rfl, hfits, hcarry⟩ := h.carries hc (not_le.1 hlt) hq
    exact hfits.roundWithAccuracy_carry s hv (hfits.le_of_accurate he) hcarry

end

/-! ## Products and quotients -/

variable {m₁ m₂ : ℕ} {e₁ e₂ : ℤ}

theorem extends_exact (n : ℕ) : Extends (.ofMantissaAndAccuracy n .exact) n :=
  rfl

theorem extends_quotient {n d : ℕ} (hd : 0 < d) :
    Extends (.ofMantissaAndAccuracy (n / d) (accuracyOfFraction (n % d) d)) (n / d) := by
  have hpos : (0 : ℚ) < d := by exact_mod_cast hd
  have hsum : (d : ℚ) * (n / d : ℕ) + (n % d : ℕ) = n := by exact_mod_cast Nat.div_add_mod n d
  have hquotient : (n : ℚ) / d = (n / d : ℕ) + (n % d : ℕ) / d := by
    rw [← hsum]
    field_simp
  have hless : (n % d : ℕ) / (d : ℚ) < 1 := (div_lt_one hpos).2 (by exact_mod_cast Nat.mod_lt n hd)
  rw [hquotient, accuracyOfFraction]
  split
  next hzero =>
    rw [hzero]
    simp [Extends, ExtendedMantissa.ofMantissaAndAccuracy]
  next hzero =>
    have hrest : (0 : ℚ) < (n % d : ℕ) / d := div_pos (by exact_mod_cast Nat.pos_of_ne_zero hzero) hpos
    rcases Nat.lt_trichotomy (2 * (n % d)) d with hlt | heq | hgt
    · rw [Nat.compare_eq_lt.2 hlt]
      have hhalf : (n % d : ℕ) / (d : ℚ) < 1 / 2 := by
        rw [div_lt_div_iff₀ hpos two_pos]
        exact_mod_cast (by omega : n % d * 2 < 1 * d)
      exact ⟨by linarith, by linarith⟩
    · rw [Nat.compare_eq_eq.2 heq]
      have hhalf : (n % d : ℕ) / (d : ℚ) = 1 / 2 := by
        rw [div_eq_div_iff hpos.ne' two_ne_zero]
        exact_mod_cast (by omega : n % d * 2 = 1 * d)
      show _ = _
      rw [hhalf]
    · rw [Nat.compare_eq_gt.2 hgt]
      have hhalf : 1 / 2 < (n % d : ℕ) / (d : ℚ) := by
        rw [div_lt_div_iff₀ two_pos hpos]
        exact_mod_cast (by omega : 1 * d < n % d * 2)
      exact ⟨by linarith, by linarith⟩

theorem two_pow_log2_le {n : ℕ} (h : 0 < n) : (2 : ℚ) ^ (n.log2 : ℤ) ≤ n := by
  rw [zpow_natCast]
  exact_mod_cast Nat.log2_self_le (Nat.ne_of_gt h)

theorem lt_two_pow_log2 (n : ℕ) : (n : ℚ) < 2 ^ ((n.log2 : ℤ) + 1) := by
  have hlt : n < 2 ^ (n.log2 + 1) := Nat.lt_log2_self
  exact_mod_cast hlt

/-- Significands are multiplied exactly, and their product is rounded. -/
theorem RoundsTo.mul (h : RoundsTo (m₁ * 2 ^ e₁ * (m₂ * 2 ^ e₂)) m q) (hc : Canonical m q)
    (h₁ : 0 < m₁) (h₂ : 0 < m₂) (hlong : 2 ^ 52 ≤ m₁ * m₂) :
    UnpackedFloat.mul .binary64 (.finite .positive m₁ e₁ h₁) (.finite .positive m₂ e₂ h₂) =
      .finite .positive m q hc.pos := by
  have hvalue : (m₁ : ℚ) * 2 ^ e₁ * (m₂ * 2 ^ e₂) = (m₁ * m₂ : ℕ) * 2 ^ (e₁ + e₂) := by
    rw [zpow_add₀ two_ne_zero]
    push_cast
    ring
  have hpos : (0 : ℚ) < 2 ^ (e₁ + e₂) := zpow_pos two_pos _
  rw [hvalue] at h
  refine h.roundWithAccuracy .positive hc ?_ (.inr ?_)
  · rw [mul_div_cancel_right₀ _ hpos.ne']
    exact extends_exact _
  · rw [zpow_add₀ two_ne_zero, mul_comm]
    exact mul_le_mul_of_nonneg_right (by exact_mod_cast hlong) hpos.le

/-- The dividend is shifted until its quotient has bits enough, and the remainder says what is lost. -/
theorem RoundsTo.div (h : RoundsTo (m₁ * 2 ^ e₁ / (m₂ * 2 ^ e₂)) m q) (hc : Canonical m q)
    (h₁ : 0 < m₁) (h₂ : 0 < m₂) :
    UnpackedFloat.div .binary64 (.finite .positive m₁ e₁ h₁) (.finite .positive m₂ e₂ h₂) =
      .finite .positive m q hc.pos := by
  obtain ⟨e, he⟩ : ∃ e, e = min (e₁ - e₂)
      (Format.binary64.targetExponent (totalExponent m₁ e₁ - totalExponent m₂ e₂)) := ⟨_, rfl⟩
  obtain ⟨k, hk⟩ : ∃ k, k = (e₁ - e₂ - e).toNat := ⟨_, rfl⟩
  have hbound : e ≤ -1074 ∨ e + 52 ≤ m₁.log2 + e₁ - (m₂.log2 + 1 + e₂) := by
    have htarget : Format.binary64.targetExponent (totalExponent m₁ e₁ - totalExponent m₂ e₂) =
        max ((m₁.log2 : ℤ) + 1 + e₁ - (m₂.log2 + 1 + e₂) - 53) (-1074) := rfl
    omega
  have hexp : e₁ = e₂ + k + e := by omega
  have hm₁ : (0 : ℚ) < m₁ := by exact_mod_cast h₁
  have hm₂ : (0 : ℚ) < m₂ := by exact_mod_cast h₂
  have hshow : UnpackedFloat.div .binary64 (.finite .positive m₁ e₁ h₁) (.finite .positive m₂ e₂ h₂) =
      UnpackedFloat.roundWithAccuracy .binary64 .positive ((m₁ <<< k) / m₂) e
        (accuracyOfFraction ((m₁ <<< k) % m₂) m₂) := by
    rw [hk, he]
    rfl
  rw [hshow]
  refine h.roundWithAccuracy .positive hc ?_ (hbound.imp_right fun hle => ?_)
  · have hvalue : (m₁ : ℚ) * 2 ^ e₁ / (m₂ * 2 ^ e₂) / 2 ^ e = (m₁ <<< k : ℕ) / m₂ := by
      rw [hexp, zpow_add₀ two_ne_zero, zpow_add₀ two_ne_zero, zpow_natCast, Nat.shiftLeft_eq]
      push_cast
      field_simp
    rw [hvalue]
    exact extends_quotient h₂
  · have hlow : (2 : ℚ) ^ (m₁.log2 + e₁) ≤ m₁ * 2 ^ e₁ := by
      rw [zpow_add₀ two_ne_zero]
      exact mul_le_mul_of_nonneg_right (two_pow_log2_le h₁) (zpow_pos two_pos _).le
    have hhigh : (m₂ : ℚ) * 2 ^ e₂ ≤ 2 ^ (m₂.log2 + 1 + e₂) := by
      rw [zpow_add₀ two_ne_zero (m₂.log2 + 1 : ℤ)]
      exact mul_le_mul_of_nonneg_right (lt_two_pow_log2 m₂).le (zpow_pos two_pos _).le
    calc (2 : ℚ) ^ (e + 52)
      _ ≤ 2 ^ (m₁.log2 + e₁ - (m₂.log2 + 1 + e₂)) := zpow_le_zpow_right₀ one_le_two hle
      _ = 2 ^ (m₁.log2 + e₁) / 2 ^ (m₂.log2 + 1 + e₂) := zpow_sub₀ two_ne_zero _ _
      _ ≤ m₁ * 2 ^ e₁ / (m₂ * 2 ^ e₂) := div_le_div₀ (by positivity) hlow (by positivity) hhigh

end Variorum.Binary64
