import Variorum.Decimal.Shortest
import Variorum.Proofs.Decimal.Nearest

/-!
# The shortest decimal is read back

The search for the shortest decimal of a float ends on a grid that is fine enough, with a decimal that is
nearest to the float.
-/

namespace Variorum.Decimal

open Binary64

/-- A power with an exponent of either sign, as a quotient of powers of which one is one. -/
theorem zpow_mul_pow_toNat_neg {b : ℚ} (hb : b ≠ 0) (e : ℤ) : b ^ e * b ^ (-e).toNat = b ^ e.toNat := by
  have hexp : e + (-e).toNat = e.toNat := by omega
  rw [← zpow_natCast, ← zpow_add₀ hb, hexp, zpow_natCast]

namespace Interval

/-- The number lies in the interval. -/
structure Holds (i : Interval) (v : ℚ) : Prop where
  low : i.value ≤ v * i.scale + i.below
  high : v * i.scale ≤ i.value + i.above
  closed_of_low : i.value = v * i.scale + i.below → i.closed = true
  closed_of_high : v * i.scale = i.value + i.above → i.closed = true

variable {i : Interval} {e : ℤ} {n : ℕ} {d : Decimal}

theorem reaches_iff {a b : ℕ} : i.reaches a b = true ↔ a ≤ b ∧ (a = b → i.closed = true) := by
  simp only [reaches, Bool.or_eq_true, Bool.and_eq_true, decide_eq_true_eq, beq_iff_eq]
  constructor
  · rintro (hlt | ⟨hclosed, rfl⟩)
    · exact ⟨by omega, by omega⟩
    · exact ⟨Nat.le_refl _, fun _ => hclosed⟩
  · rintro ⟨hle, hclosed⟩
    rcases Nat.lt_or_eq_of_le hle with hlt | heq
    · exact .inl hlt
    · exact .inr ⟨hclosed heq, heq⟩

/-- A point of a grid lies in the interval if it does so in the units of the grid. -/
theorem holds_of_onGrid (h : (i.onGrid e).Holds n) : i.Holds (n * 10 ^ e) := by
  have hten : (0 : ℚ) < 10 ^ (-e).toNat := by positivity
  have hscale : (n : ℚ) * (i.onGrid e).scale = n * 10 ^ e * i.scale * 10 ^ (-e).toNat := by
    have hpower := zpow_mul_pow_toNat_neg (show (10 : ℚ) ≠ 0 by norm_num) e
    calc (n : ℚ) * (i.scale * 10 ^ e.toNat : ℕ)
      _ = n * (i.scale * 10 ^ e.toNat) := by push_cast; rfl
      _ = n * 10 ^ e * i.scale * 10 ^ (-e).toNat := by rw [← hpower]; ring
  have hvalue : ((i.onGrid e).value : ℚ) = i.value * 10 ^ (-e).toNat := by
    exact_mod_cast (rfl : (i.onGrid e).value = i.value * 10 ^ (-e).toNat)
  have hbelow : ((i.onGrid e).below : ℚ) = i.below * 10 ^ (-e).toNat := by
    exact_mod_cast (rfl : (i.onGrid e).below = i.below * 10 ^ (-e).toNat)
  have habove : ((i.onGrid e).above : ℚ) = i.above * 10 ^ (-e).toNat := by
    exact_mod_cast (rfl : (i.onGrid e).above = i.above * 10 ^ (-e).toNat)
  obtain ⟨hlow, hhigh, hclosedLow, hclosedHigh⟩ := h
  rw [hscale, hvalue, hbelow, ← add_mul] at hlow hclosedLow
  rw [hscale, hvalue, habove, ← add_mul] at hhigh hclosedHigh
  exact ⟨le_of_mul_le_mul_right hlow hten, le_of_mul_le_mul_right hhigh hten,
    fun heq => hclosedLow (congrArg (· * _) heq), fun heq => hclosedHigh (congrArg (· * _) heq)⟩

theorem holds_down (habove : 0 < i.above) (h : i.reaches (i.value % i.scale) i.below = true) :
    i.Holds (i.value / i.scale : ℕ) := by
  obtain ⟨hle, hclosed⟩ := reaches_iff.1 h
  have hsum := Nat.div_add_mod' i.value i.scale
  generalize i.value / i.scale = n at *
  constructor
  · exact_mod_cast (by omega : i.value ≤ n * i.scale + i.below)
  · exact_mod_cast (by omega : n * i.scale ≤ i.value + i.above)
  · intro heq
    have heq' : i.value = n * i.scale + i.below := by exact_mod_cast heq
    exact hclosed (by omega)
  · intro heq
    have heq' : n * i.scale = i.value + i.above := by exact_mod_cast heq
    omega

theorem holds_up (hscale : 0 < i.scale) (h : i.reaches (i.scale - i.value % i.scale) i.above = true) :
    i.Holds (i.value / i.scale + 1 : ℕ) := by
  obtain ⟨hle, hclosed⟩ := reaches_iff.1 h
  have hsum := Nat.div_add_mod' i.value i.scale
  have hrest := Nat.mod_lt i.value hscale
  have hmul := Nat.succ_mul (i.value / i.scale) i.scale
  rw [Nat.succ_eq_add_one] at hmul
  generalize i.value / i.scale = n at *
  constructor
  · exact_mod_cast (by omega : i.value ≤ (n + 1) * i.scale + i.below)
  · exact_mod_cast (by omega : (n + 1) * i.scale ≤ i.value + i.above)
  · intro heq
    have heq' : i.value = (n + 1) * i.scale + i.below := by exact_mod_cast heq
    omega
  · intro heq
    have heq' : (n + 1) * i.scale = i.value + i.above := by exact_mod_cast heq
    exact hclosed (by omega)

/-- What is found on a grid lies in the interval. -/
theorem nearest?_eq_some (habove : 0 < i.above) (hscale : 0 < i.scale) (h : i.nearest? e = some d) :
    0 < d.digits ∧ d.exponent = e ∧ i.Holds (d.digits * 10 ^ d.exponent) := by
  have hten : ∀ k, 0 < 10 ^ k := fun k => Nat.pow_pos (by decide)
  unfold nearest? at h
  dsimp only at h
  split at h
  next hup =>
    cases h
    exact ⟨Nat.succ_pos _, rfl, holds_of_onGrid (holds_up (Nat.mul_pos hscale (hten _)) hup.1)⟩
  next =>
    split at h
    next hdown =>
      cases h
      exact ⟨Nat.pos_of_ne_zero hdown.1, rfl,
        holds_of_onGrid (holds_down (Nat.mul_pos habove (hten _)) hdown.2)⟩
    next => cases h

/-- On a grid that is fine enough the point above the value is in reach. -/
theorem isSome_nearest? (h : (i.onGrid e).scale < (i.onGrid e).above) : (i.nearest? e).isSome = true := by
  have hup : (i.onGrid e).reaches ((i.onGrid e).scale - (i.onGrid e).value % (i.onGrid e).scale)
      (i.onGrid e).above = true := reaches_iff.2 ⟨by omega, by omega⟩
  unfold nearest?
  dsimp only
  split
  next => rfl
  next hnot =>
    rw [if_pos]
    · rfl
    · by_contra hdown
      exact hnot ⟨hup, .inl hdown⟩

theorem coarsest_eq {steps k : ℕ} (hk : k < steps) (h : (i.nearest? (e - k)).isSome = true) :
    ∃ j, j ≤ k ∧ i.nearest? (e - j) = some (i.coarsest steps e) := by
  induction steps generalizing e k with
  | zero => omega
  | succ steps ih =>
    rw [coarsest]
    cases hnearest : i.nearest? e with
    | some d => exact ⟨0, Nat.zero_le _, by simpa using hnearest⟩
    | none =>
      cases k with
      | zero =>
        rw [Nat.cast_zero, sub_zero, hnearest] at h
        cases h
      | succ k =>
        have hgrid : e - (k + 1 : ℕ) = e - 1 - k := by omega
        rw [hgrid] at h
        obtain ⟨j, hj, hfound⟩ := ih (Nat.lt_of_succ_lt_succ hk) h
        refine ⟨j + 1, by omega, ?_⟩
        rw [show e - (j + 1 : ℕ) = e - 1 - j by omega]
        exact hfound

/-! ## The interval of a float -/

variable {x : Float}

theorem value_ofFloat :
    (ofFloat x).value = 4 * Binary64.significand x * 2 ^ (Binary64.exponent x - 2).toNat :=
  rfl

theorem above_ofFloat : (ofFloat x).above = 2 * 2 ^ (Binary64.exponent x - 2).toNat :=
  rfl

theorem scale_ofFloat : (ofFloat x).scale = 2 ^ (2 - Binary64.exponent x).toNat :=
  rfl

theorem scale_ofFloat_pos : 0 < (ofFloat x).scale :=
  Nat.pow_pos two_pos

theorem above_ofFloat_pos : 0 < (ofFloat x).above :=
  Nat.mul_pos two_pos (Nat.pow_pos two_pos)

/-- How far the interval reaches down, in quarters of the last place of the float. -/
def quartersBelow (x : Float) : ℕ :=
  if Binary64.significand x = 2 ^ 52 ∧ -1074 < Binary64.exponent x then 1 else 2

theorem below_ofFloat : (ofFloat x).below = quartersBelow x * 2 ^ (Binary64.exponent x - 2).toNat := by
  unfold quartersBelow
  by_cases hnarrow : Binary64.significand x = 2 ^ 52 ∧ -1074 < Binary64.exponent x
  · rw [if_pos hnarrow, Nat.one_mul]
    exact if_pos hnarrow
  · rw [if_neg hnarrow]
    exact if_neg hnarrow

/-- In units of a quarter of the last place the interval is one of natural numbers. -/
theorem quarters_of_holds {w : ℚ} (h : (ofFloat x).Holds (w * 2 ^ Binary64.exponent x)) :
    (4 * Binary64.significand x ≤ 4 * w + quartersBelow x ∧ 4 * w ≤ 4 * Binary64.significand x + 2) ∧
      (4 * Binary64.significand x = 4 * w + quartersBelow x ∨ 4 * w = 4 * Binary64.significand x + 2 →
        Binary64.significand x % 2 = 0) := by
  have hclosed : (ofFloat x).closed = true → Binary64.significand x % 2 = 0 := of_decide_eq_true
  obtain ⟨hlow, hhigh, hlowClosed, hhighClosed⟩ := h
  rw [value_ofFloat, scale_ofFloat, below_ofFloat] at hlow hlowClosed
  rw [value_ofFloat, scale_ofFloat, above_ofFloat] at hhigh hhighClosed
  generalize Binary64.significand x = m at *
  generalize Binary64.exponent x = q at *
  have hunit : (0 : ℚ) < 2 ^ (q - 2).toNat := by positivity
  have hpower : (2 : ℚ) ^ q * 2 ^ (2 - q).toNat = 4 * 2 ^ (q - 2).toNat := by
    have hquarter := zpow_mul_pow_toNat_neg two_ne_zero (q - 2)
    rw [neg_sub] at hquarter
    rw [← hquarter, zpow_sub₀ two_ne_zero]
    norm_num
    ring
  have hscaled : w * 2 ^ q * (2 ^ (2 - q).toNat : ℕ) = 4 * w * 2 ^ (q - 2).toNat := by
    rw [mul_assoc, Nat.cast_pow, Nat.cast_ofNat, hpower]
    ring
  push_cast at hlow hhigh hlowClosed hhighClosed hscaled
  rw [hscaled, ← add_mul] at hlow hhigh hlowClosed hhighClosed
  exact ⟨⟨le_of_mul_le_mul_right hlow hunit, le_of_mul_le_mul_right hhigh hunit⟩, fun heq => hclosed <|
    heq.elim (fun heq => hlowClosed (congrArg (· * _) heq)) fun heq => hhighClosed (congrArg (· * _) heq)⟩

/-- What the interval of a float holds is nearest to the float. -/
theorem roundsTo_of_holds {v : ℚ} (h : (ofFloat x).Holds v) :
    RoundsTo v (Binary64.significand x) (Binary64.exponent x) := by
  have hunit : (2 : ℚ) ^ Binary64.exponent x ≠ 0 := zpow_ne_zero _ two_ne_zero
  obtain ⟨w, rfl⟩ : ∃ w : ℚ, v = w * 2 ^ Binary64.exponent x :=
    ⟨v / 2 ^ Binary64.exponent x, (div_mul_cancel₀ v hunit).symm⟩
  obtain ⟨⟨hlow, hhigh⟩, heven⟩ := quarters_of_holds h
  have hcancel : w * 2 ^ Binary64.exponent x / 2 ^ Binary64.exponent x = w := mul_div_cancel_right₀ _ hunit
  unfold quartersBelow at hlow heven
  by_cases hnarrow : Binary64.significand x = 2 ^ 52 ∧ -1074 < Binary64.exponent x
  · rw [if_pos hnarrow, Nat.cast_one] at hlow heven
    refine ⟨⟨?_, ?_, ?_, ?_⟩, fun _ _ => ?_⟩ <;> rw [hcancel]
    · linarith
    · linarith
    · exact fun heq => heven (.inr (by linarith))
    · intro heq
      linarith
    · linarith
  · rw [if_neg hnarrow, Nat.cast_ofNat] at hlow heven
    refine ⟨⟨?_, ?_, ?_, ?_⟩, fun hm hq => absurd ⟨hm, hq⟩ hnarrow⟩ <;> rw [hcancel]
    · linarith
    · linarith
    · exact fun heq => heven (.inr (by linarith))
    · exact fun heq => heven (.inl (by linarith))

theorem ceiling_ofFloat (h : 0 < Binary64.significand x) :
    (ofFloat x).ceiling = ((Binary64.significand x).log2 + Binary64.exponent x + 1) * 30103 / 100000 + 2 := by
  have hvalue : (ofFloat x).value.log2 =
      (Binary64.significand x).log2 + 2 + (Binary64.exponent x - 2).toNat := by
    rw [value_ofFloat, log2_mul_two_pow (by omega), Nat.mul_comm, show 4 = 2 ^ 2 from rfl,
      log2_mul_two_pow (by omega)]
  have hscale : (ofFloat x).scale.log2 = (2 - Binary64.exponent x).toNat := Nat.log2_two_pow
  have hlog : ((Binary64.significand x).log2 + 2 + (Binary64.exponent x - 2).toNat : ℤ) -
      (2 - Binary64.exponent x).toNat = (Binary64.significand x).log2 + Binary64.exponent x := by omega
  rw [ceiling, hvalue, hscale]
  push_cast
  rw [hlog]

theorem ceiling_bounds (hc : Canonical (Binary64.significand x) (Binary64.exponent x)) :
    -322 ≤ (ofFloat x).ceiling ∧
      (ofFloat x).ceiling ≤ (53 + Binary64.exponent x) * 30103 / 100000 + 2 := by
  have hleast := hc.least
  have hlog : (Binary64.significand x).log2 < 53 := (Nat.log2_lt (Nat.ne_of_gt hc.pos)).2 hc.lt
  rw [ceiling_ofFloat hc.pos]
  constructor <;> omega

/-- Twenty-four grids below the ceiling the points are close enough to each other. -/
theorem fine_ofFloat (hc : Canonical (Binary64.significand x) (Binary64.exponent x))
    (hlarge : Binary64.exponent x ≤ 971) {e : ℤ} (he : e = (ofFloat x).ceiling - 24) :
    ((ofFloat x).onGrid e).scale < ((ofFloat x).onGrid e).above := by
  obtain ⟨-, hceiling⟩ := ceiling_bounds hc
  have hleast := hc.least
  generalize hq : Binary64.exponent x = q at hceiling hlarge hleast
  have hscale : ((ofFloat x).onGrid e).scale = 2 ^ (2 - q).toNat * 10 ^ e.toNat := hq ▸ rfl
  have habove : ((ofFloat x).onGrid e).above = 2 * 2 ^ (q - 2).toNat * 10 ^ (-e).toNat := hq ▸ rfl
  have hunit : 0 < 2 ^ (q - 2).toNat := Nat.two_pow_pos _
  rw [hscale, habove]
  rcases le_or_gt 0 e with hpos | hneg
  · have hpower : 10 ^ e.toNat ≤ 2 ^ (q - 2).toNat := ten_pow_le_two_pow (by omega)
    rw [show (2 - q).toNat = 0 by omega, show (-e).toNat = 0 by omega, pow_zero, pow_zero]
    omega
  · have hpower : 2 ^ (2 - q).toNat ≤ 10 ^ (-e).toNat := two_pow_le_ten_pow (by omega)
    have hten : 0 < 10 ^ (-e).toNat := Nat.pow_pos (by decide)
    rw [show e.toNat = 0 by omega, pow_zero, mul_one]
    calc 2 ^ (2 - q).toNat
      _ ≤ 10 ^ (-e).toNat := hpower
      _ < 2 * 10 ^ (-e).toNat := by omega
      _ ≤ 2 * 2 ^ (q - 2).toNat * 10 ^ (-e).toNat := Nat.mul_le_mul_right _ (by omega)

end Interval

/-! ## The decimals of a float -/

variable {x : Float}

/-- The decimal is read as the magnitude of the float, and has not too many digits on either side of the
point. -/
structure Denotes (d : Decimal) (x : Float) : Prop where
  nearest : nearestFloat d.digits d.exponent = x.abs
  exponent_ge : -346 ≤ d.exponent
  length_le : (Nat.toDigits 10 d.digits).length + d.exponent ≤ 312

theorem denotes_of_roundsTo {d : Decimal} (h : x.isFinite = true) (hzero : Binary64.significand x ≠ 0)
    (hdigits : 0 < d.digits) (hexponent : -346 ≤ d.exponent)
    (hrounds : RoundsTo (d.digits * 10 ^ d.exponent) (Binary64.significand x) (Binary64.exponent x)) :
    Denotes d x := by
  obtain ⟨hc, hlarge⟩ := canonical_of_significand h hzero
  refine ⟨?_, hexponent, length_add_exponent_le hdigits hrounds hc hlarge⟩
  rw [abs_of_significand h hc]
  exact nearestFloat_of_roundsTo hdigits (by omega) hrounds hc hlarge

theorem denotes_zero {e : ℤ} (h : x.isFinite = true) (hzero : Binary64.significand x = 0)
    (hlow : -346 ≤ e) (hhigh : e ≤ 0) : Denotes ⟨0, e⟩ x := by
  refine ⟨?_, hlow, ?_⟩
  · rw [abs_of_significand_zero h hzero, nearestFloat, if_pos (.inl rfl)]
    rfl
  · show ((Nat.toDigits 10 0).length : ℤ) + e ≤ 312
    rw [Nat.toDigits_zero, List.length_singleton]
    omega

/-- The search succeeds, and not below the grid where it would at the latest. -/
theorem shortest_spec (h : x.isFinite = true) (hzero : Binary64.significand x ≠ 0) :
    0 < (shortest x).digits ∧ -346 ≤ (shortest x).exponent ∧
      RoundsTo ((shortest x).digits * 10 ^ (shortest x).exponent) (Binary64.significand x)
        (Binary64.exponent x) := by
  obtain ⟨hc, hlarge⟩ := canonical_of_significand h hzero
  have hfine := Interval.isSome_nearest? (Interval.fine_ofFloat hc hlarge rfl)
  obtain ⟨j, hj, hfound⟩ := Interval.coarsest_eq (show 24 < 25 by decide) hfine
  obtain ⟨hdigits, hexponent, hholds⟩ :=
    Interval.nearest?_eq_some Interval.above_ofFloat_pos Interval.scale_ofFloat_pos hfound
  have hceiling := (Interval.ceiling_bounds hc).1
  have hshortest : shortest x = (Interval.ofFloat x).coarsest 25 (Interval.ofFloat x).ceiling := if_neg hzero
  rw [← hshortest] at hdigits hexponent hholds
  exact ⟨hdigits, by omega, Interval.roundsTo_of_holds hholds⟩

theorem denotes_shortest (h : x.isFinite = true) : Denotes (shortest x) x := by
  by_cases hzero : Binary64.significand x = 0
  · rw [shortest, if_pos hzero]
    exact denotes_zero h hzero (by decide) (by decide)
  · obtain ⟨hdigits, hexponent, hrounds⟩ := shortest_spec h hzero
    exact denotes_of_roundsTo h hzero hdigits hexponent hrounds

/-! ## Whole floats -/

theorem wholePart_of_isWhole (h : Binary64.isWhole x = true) :
    (Binary64.wholePart x : ℚ) = Binary64.significand x * 2 ^ Binary64.exponent x := by
  have hexcess : Binary64.excess x = 0 := by simpa [Binary64.isWhole] using (Bool.and_eq_true_iff.1 h).2
  have hpower := zpow_mul_pow_toNat_neg two_ne_zero (Binary64.exponent x)
  have hpos : (0 : ℚ) < 2 ^ (-Binary64.exponent x).toNat := by positivity
  have hnat : Binary64.significand x * 2 ^ (Binary64.exponent x).toNat =
      Binary64.wholePart x * 2 ^ (-Binary64.exponent x).toNat :=
    (Nat.div_mul_cancel (Nat.dvd_of_mod_eq_zero hexcess)).symm
  have hrat : (Binary64.significand x : ℚ) * 2 ^ (Binary64.exponent x).toNat =
      Binary64.wholePart x * 2 ^ (-Binary64.exponent x).toNat := by exact_mod_cast hnat
  rw [← hpower, ← mul_assoc] at hrat
  exact (mul_right_cancel₀ hpos.ne' hrat).symm

theorem denotes_whole (h : Binary64.isWhole x = true) : Denotes ⟨10 * Binary64.wholePart x, -1⟩ x := by
  have hfinite : x.isFinite = true := (Bool.and_eq_true_iff.1 h).1
  have hvalue := wholePart_of_isWhole h
  by_cases hzero : Binary64.significand x = 0
  · have hwhole : Binary64.wholePart x = 0 := by
      rw [hzero, Nat.cast_zero, zero_mul] at hvalue
      exact_mod_cast hvalue
    rw [hwhole]
    exact denotes_zero hfinite hzero (by decide) (by decide)
  · have hpos : 0 < Binary64.wholePart x := by
      have hsignificand : (0 : ℚ) < Binary64.significand x := by exact_mod_cast Nat.pos_of_ne_zero hzero
      have hrat : (0 : ℚ) < Binary64.wholePart x := by
        rw [hvalue]
        positivity
      exact_mod_cast hrat
    have hexponent : (-346 : ℤ) ≤ -1 := by decide
    refine denotes_of_roundsTo hfinite hzero (Nat.mul_pos (by decide) hpos) hexponent ?_
    have hdecimal : ((10 * Binary64.wholePart x : ℕ) : ℚ) * 10 ^ (-1 : ℤ) =
        Binary64.significand x * 2 ^ Binary64.exponent x := by
      rw [← hvalue, zpow_neg_one]
      push_cast
      field_simp
    rw [hdecimal]
    exact roundsTo_self

/-- A float that is not whole is nearest to no integer. -/
theorem shortest_exponent_neg (h : x.isFinite = true) (hwhole : Binary64.isWhole x = false) :
    (shortest x).exponent < 0 := by
  have hexcess : Binary64.excess x ≠ 0 := by
    intro hnone
    rw [Binary64.isWhole, h, hnone] at hwhole
    cases hwhole
  have hzero : Binary64.significand x ≠ 0 := by
    intro hnone
    rw [Binary64.excess, hnone, Nat.zero_mul, Nat.zero_mod] at hexcess
    exact hexcess rfl
  obtain ⟨-, -, hrounds⟩ := shortest_spec h hzero
  by_contra hpos
  obtain ⟨j, hj⟩ := Int.eq_ofNat_of_zero_le (not_lt.1 hpos)
  have hexponent : Binary64.exponent x < 0 := by
    by_contra hnonneg
    have hunit : (-Binary64.exponent x).toNat = 0 := by omega
    rw [Binary64.excess, hunit] at hexcess
    exact hexcess (Nat.mod_one _)
  obtain ⟨k, hk⟩ : ∃ k : ℕ, Binary64.exponent x = -k := ⟨(-Binary64.exponent x).toNat, by omega⟩
  have hnearest := hrounds.nearest
  have hvalue : ((shortest x).digits : ℚ) * 10 ^ (shortest x).exponent / 2 ^ Binary64.exponent x =
      ((shortest x).digits * 10 ^ j * 2 ^ k : ℕ) := by
    rw [hj, hk, zpow_natCast, zpow_neg, zpow_natCast, div_inv_eq_mul]
    push_cast
    rfl
  rw [hvalue] at hnearest
  have hmultiple := hnearest.unique (nearest_self _)
  have hunit : Binary64.excess x = Binary64.significand x % 2 ^ k := by
    show Binary64.significand x * 2 ^ (Binary64.exponent x).toNat % 2 ^ (-Binary64.exponent x).toNat = _
    rw [hk, neg_neg, Int.toNat_natCast, show (-k : ℤ).toNat = 0 by omega, pow_zero, mul_one]
  rw [hunit, hmultiple, Nat.mul_mod_left] at hexcess
  exact hexcess rfl

end Variorum.Decimal
