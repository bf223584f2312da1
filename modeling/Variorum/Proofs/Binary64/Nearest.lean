import Mathlib.Algebra.Group.Nat.Defs

/-!
# Integers of fifty-three bits

Every integer has a nearest one among those that can be written with fifty-three significant bits. Taking
it keeps the order of integers, and changes none that has no more bits.
-/

namespace Variorum.Binary64

/-- The integer nearest to `n / 2 ^ k`. Of two that are equally near it is the even one. -/
def quotient (n k : Nat) : Nat :=
  if 2 * (n % 2 ^ k) < 2 ^ k then n / 2 ^ k
  else if 2 * (n % 2 ^ k) = 2 ^ k then n / 2 ^ k + n / 2 ^ k % 2
  else n / 2 ^ k + 1

/-- How many bits a number has behind its first fifty-three. -/
def surplus (n : Nat) : Nat :=
  n.log2 - 52

def nearestNat (n : Nat) : Nat :=
  quotient n (surplus n) * 2 ^ surplus n

/-- The integer of fifty-three significant bits that is nearest to `n`. -/
def nearest (n : Int) : Int :=
  if n < 0 then -nearestNat n.natAbs else nearestNat n.natAbs

variable {n n' k : Nat}

theorem quotient_bounds : n / 2 ^ k ≤ quotient n k ∧ quotient n k ≤ n / 2 ^ k + 1 := by
  unfold quotient
  split
  · omega
  · split <;> omega

theorem quotient_zero : quotient n 0 = n := by
  unfold quotient
  rw [Nat.pow_zero, Nat.mod_one, Nat.div_one]
  rfl

theorem quotient_mono (h : n ≤ n') : quotient n k ≤ quotient n' k := by
  rcases Nat.lt_or_ge (n / 2 ^ k) (n' / 2 ^ k) with hlt | hge
  · have hhigh := (quotient_bounds (n := n) (k := k)).2
    have hlow := (quotient_bounds (n := n') (k := k)).1
    omega
  · have hquotient : n / 2 ^ k = n' / 2 ^ k := Nat.le_antisymm (Nat.div_le_div_right h) hge
    rcases Nat.lt_or_ge (2 * (n % 2 ^ k)) (2 ^ k) with hlt | hge
    · calc quotient n k
        _ = n / 2 ^ k := if_pos hlt
        _ ≤ quotient n' k := hquotient ▸ quotient_bounds.1
    · have hrest : n % 2 ^ k ≤ n' % 2 ^ k := by
        have hsum := Nat.div_add_mod n (2 ^ k)
        have hsum' := Nat.div_add_mod n' (2 ^ k)
        rw [hquotient] at hsum
        omega
      have hge' : 2 ^ k ≤ 2 * (n' % 2 ^ k) := by omega
      unfold quotient
      rw [hquotient, if_neg (Nat.not_lt.2 hge), if_neg (Nat.not_lt.2 hge')]
      split
      · split <;> omega
      · exact Nat.le_of_eq (if_neg (by omega)).symm

/-- A factor that both sides of the division have may be cancelled. -/
theorem quotient_mul {j : Nat} : quotient (n * 2 ^ j) (k + j) = quotient n k := by
  have hpos : 0 < 2 ^ j := Nat.two_pow_pos j
  have hlt : 2 * (n % 2 ^ k * 2 ^ j) < 2 ^ k * 2 ^ j ↔ 2 * (n % 2 ^ k) < 2 ^ k := by
    rw [← Nat.mul_assoc]
    exact Nat.mul_lt_mul_right hpos
  have heq : 2 * (n % 2 ^ k * 2 ^ j) = 2 ^ k * 2 ^ j ↔ 2 * (n % 2 ^ k) = 2 ^ k := by
    rw [← Nat.mul_assoc]
    exact Nat.mul_left_inj (Nat.ne_of_gt hpos)
  unfold quotient
  rw [Nat.pow_add, Nat.mul_mod_mul_right, Nat.mul_div_mul_right _ _ hpos]
  simp only [hlt, heq]

/-! ## Bounds -/

theorem le_quotient_mul {a : Nat} (h : 2 ^ (a + k) ≤ n) : 2 ^ a ≤ quotient n k := by
  refine Nat.le_trans ?_ quotient_bounds.1
  rw [Nat.le_div_iff_mul_le (Nat.two_pow_pos k), ← Nat.pow_add]
  exact h

theorem quotient_mul_le {a : Nat} (h : n < 2 ^ (a + k)) : quotient n k ≤ 2 ^ a := by
  have hdiv : n / 2 ^ k < 2 ^ a := by
    rw [Nat.div_lt_iff_lt_mul (Nat.two_pow_pos k), ← Nat.pow_add]
    exact h
  have hquotient := (quotient_bounds (n := n) (k := k)).2
  omega

theorem surplus_le_log2 : surplus n ≤ n.log2 :=
  Nat.sub_le _ _

theorem two_pow_log2_le_nearestNat (h : n ≠ 0) : 2 ^ n.log2 ≤ nearestNat n := by
  have hsum : n.log2 - surplus n + surplus n = n.log2 := Nat.sub_add_cancel surplus_le_log2
  have hquotient : 2 ^ (n.log2 - surplus n) ≤ quotient n (surplus n) :=
    le_quotient_mul (by rw [hsum]; exact Nat.log2_self_le h)
  calc 2 ^ n.log2
    _ = 2 ^ (n.log2 - surplus n) * 2 ^ surplus n := by rw [← Nat.pow_add, hsum]
    _ ≤ nearestNat n := Nat.mul_le_mul_right _ hquotient

theorem nearestNat_le_two_pow : nearestNat n ≤ 2 ^ (n.log2 + 1) := by
  have hsum : n.log2 + 1 - surplus n + surplus n = n.log2 + 1 :=
    Nat.sub_add_cancel (Nat.le_succ_of_le surplus_le_log2)
  have hquotient : quotient n (surplus n) ≤ 2 ^ (n.log2 + 1 - surplus n) :=
    quotient_mul_le (by rw [hsum]; exact Nat.lt_log2_self)
  calc nearestNat n
    _ ≤ 2 ^ (n.log2 + 1 - surplus n) * 2 ^ surplus n := Nat.mul_le_mul_right _ hquotient
    _ = 2 ^ (n.log2 + 1) := by rw [← Nat.pow_add, hsum]

/-- A number that is first shifted to any number of bits more, and then divided until fifty-three of them
are left, is rounded as the number itself. -/
theorem quotient_shifted {j : Nat} (h : n.log2 + j = k + 52) :
    quotient (n * 2 ^ j) k * 2 ^ n.log2 = nearestNat n * 2 ^ 52 := by
  unfold nearestNat surplus
  rcases Nat.le_total 52 n.log2 with hlog | hlog
  · have hk : k = n.log2 - 52 + j := by omega
    rw [hk, quotient_mul, Nat.mul_assoc, ← Nat.pow_add, Nat.sub_add_cancel hlog]
  · obtain ⟨i, hi⟩ : ∃ i, n.log2 + i = 52 := ⟨52 - n.log2, by omega⟩
    have hj : j = i + k := by omega
    have hquotient : quotient (n * 2 ^ j) k = n * 2 ^ i := by
      have hmul := quotient_mul (n := n * 2 ^ i) (k := 0) (j := k)
      rwa [Nat.zero_add, quotient_zero, Nat.mul_assoc, ← Nat.pow_add, ← hj] at hmul
    rw [hquotient, Nat.sub_eq_zero_of_le hlog, quotient_zero, Nat.pow_zero, Nat.mul_one, Nat.mul_assoc,
      ← Nat.pow_add, Nat.add_comm i, hi]

/-! ## Order -/

theorem nearestNat_mono (h : n ≤ n') : nearestNat n ≤ nearestNat n' := by
  rcases Nat.eq_zero_or_pos n with rfl | hpos
  · exact Nat.zero_le _
  · have hzero : n ≠ 0 := Nat.ne_of_gt hpos
    have hzero' : n' ≠ 0 := Nat.ne_of_gt (Nat.lt_of_lt_of_le hpos h)
    have hlog : n.log2 ≤ n'.log2 := (Nat.le_log2 hzero').2 (Nat.le_trans (Nat.log2_self_le hzero) h)
    rcases Nat.lt_or_eq_of_le hlog with hlt | heq
    -- A power of two lies between the two.
    · calc nearestNat n
        _ ≤ 2 ^ (n.log2 + 1) := nearestNat_le_two_pow
        _ ≤ 2 ^ n'.log2 := Nat.pow_le_pow_right (by decide) hlt
        _ ≤ nearestNat n' := two_pow_log2_le_nearestNat hzero'
    · unfold nearestNat surplus
      rw [heq]
      exact Nat.mul_le_mul_right _ (quotient_mono h)

theorem nearestNat_of_lt (h : n < 2 ^ 53) : nearestNat n = n := by
  have hlog : n.log2 < 53 := by
    rcases Nat.eq_zero_or_pos n with rfl | hpos
    · decide
    · exact (Nat.log2_lt (Nat.ne_of_gt hpos)).2 h
  have hsurplus : surplus n = 0 := by
    unfold surplus
    omega
  rw [nearestNat, hsurplus, quotient_zero, Nat.pow_zero, Nat.mul_one]

theorem nearest_mono {i j : Int} (h : i ≤ j) : nearest i ≤ nearest j := by
  unfold nearest
  split
  · split
    · have hmono := nearestNat_mono (show j.natAbs ≤ i.natAbs by omega)
      omega
    · omega
  · rw [if_neg (by omega)]
    have hmono := nearestNat_mono (show i.natAbs ≤ j.natAbs by omega)
    omega

/-- An integer of fifty-three bits is its own nearest one. -/
theorem nearest_of_natAbs_lt {i : Int} (h : i.natAbs < 2 ^ 53) : nearest i = i := by
  unfold nearest
  rw [nearestNat_of_lt h]
  split <;> omega

end Variorum.Binary64
