import Mathlib.Algebra.Group.Int.Defs
import Mathlib.Algebra.Group.Nat.Defs
import Variorum.Library.Math
import Variorum.Proofs.Except
import Variorum.Proofs.Integer

/-!
# Powers of integers

A power of an integer to an exponent of thirty-two bits is exact or refused. A larger exponent leaves the
integers, also for the bases whose powers are in range whatever the exponent.
-/

namespace Variorum.Library

variable {base : Int} {exponent : Nat}

/-- To the bases that have powers of any size only the parity of the exponent matters. -/
theorem pow_of_natAbs_lt_two (hbase : base.natAbs < 2) (hexponent : 2 ≤ exponent) :
    base ^ (2 + exponent % 2) = base ^ exponent := by
  have hsquare : base ^ 2 * base ^ 2 = base ^ 2 := by
    rcases (by omega : base = 0 ∨ base = 1 ∨ base = -1) with rfl | rfl | rfl <;> rfl
  have hsquares : ∀ k, (base ^ 2) ^ (k + 1) = base ^ 2 := by
    intro k
    induction k with
    | zero => exact Int.pow_one _
    | succ k ih => rw [Int.pow_succ, ih, hsquare]
  obtain ⟨k, hk⟩ : ∃ k, exponent / 2 = k + 1 := ⟨exponent / 2 - 1, by omega⟩
  calc base ^ (2 + exponent % 2)
    _ = base ^ 2 * base ^ (exponent % 2) := Int.pow_add _ _ _
    _ = base ^ (2 * (exponent / 2)) * base ^ (exponent % 2) := by rw [hk, Int.pow_mul, hsquares]
    _ = base ^ exponent := by rw [← Int.pow_add, Nat.div_add_mod]

theorem not_inRange_pow (hbase : 2 ≤ base.natAbs) (hexponent : 64 ≤ exponent) :
    ¬Integer.InRange (base ^ exponent) := by
  have hpow : 2 ^ 64 ≤ (base ^ exponent).natAbs :=
    calc 2 ^ 64
      _ ≤ 2 ^ exponent := Nat.pow_le_pow_right (by decide) hexponent
      _ ≤ base.natAbs ^ exponent := Nat.pow_le_pow_left hbase exponent
      _ = (base ^ exponent).natAbs := (Int.natAbs_pow base exponent).symm
  unfold Integer.InRange
  omega

theorem inRange_pow (hbase : base.natAbs < 2) : Integer.InRange (base ^ exponent) := by
  have hpow : (base ^ exponent).natAbs ≤ 1 :=
    calc (base ^ exponent).natAbs
      _ = base.natAbs ^ exponent := Int.natAbs_pow base exponent
      _ ≤ 1 ^ exponent := Nat.pow_le_pow_left (by omega) exponent
      _ = 1 := Nat.one_pow exponent
  unfold Integer.InRange
  omega

/-- A power is computed without numbers that are too wide. -/
theorem integerPower?_eq : integerPower? base exponent = Integer.ofInt? (base ^ exponent) := by
  unfold integerPower?
  split
  · split
    · rfl
    · exact congrArg Integer.ofInt? (pow_of_natAbs_lt_two ‹_› (by omega))
  · split
    · rfl
    · exact (Integer.ofInt?_eq_none.2 (not_inRange_pow (by omega) (by omega))).symm

/-- The answer is the power, if that is in range, and a refusal otherwise. -/
structure IsExactPower (base : Int) (exponent : Nat) (answer : Except Failure Value) : Prop where
  power : ∀ r : Int64, r.toInt = base ^ exponent → answer = .ok (.integer r)
  refusal : ¬Integer.InRange (base ^ exponent) →
    ∃ details, answer = .error (.invalidArgument details)

section

variable {b e : Int64}

theorem pow_of_lt (h : 0 ≤ e.toInt) (hword : e.toInt < 0x100000000) :
    IsExactPower b.toInt e.toInt.toNat (pow.apply [.integer b, .integer e]) := by
  have hpow : pow.apply [.integer b, .integer e] =
      (Integer.ofInt? (b.toInt ^ e.toInt.toNat)).elim (.error (.invalidArgument "pow(): integer overflow"))
        fun r => .ok (.integer r) := by
    show (if _ then _ else _) = _
    rw [if_pos ⟨h, hword⟩, integerPower?_eq]
    cases Integer.ofInt? (b.toInt ^ e.toInt.toNat) <;> rfl
  constructor
  · intro r hr
    rw [hpow, ← hr, Integer.ofInt?_toInt]
    rfl
  · intro hwide
    rw [hpow, Integer.ofInt?_eq_none.2 hwide]
    exact ⟨_, rfl⟩

theorem pow_of_le (hword : 0x100000000 ≤ e.toInt) :
    pow.apply [.integer b, .integer e] =
      finite "pow" ((Float.ofInt b.toInt).pow (Float.ofInt e.toInt)) := by
  show (if _ then _ else _) = _
  rw [if_neg (by omega)]

theorem finite_ne_integer {function : String} {x : Float} (r : Int64) :
    finite function x ≠ .ok (.integer r) := by
  unfold finite
  split <;> exact nofun

/-- A float is never the power; a refusal is right where the power is out of range. -/
theorem finite_isExactPower {function : String} {x : Float} (hexponent : 64 ≤ exponent) :
    IsExactPower base exponent (finite function x) ↔ 2 ≤ base.natAbs ∧ x.isFinite = false := by
  by_cases hbase : 2 ≤ base.natAbs
  · have hwide := not_inRange_pow hbase hexponent
    rw [and_iff_right hbase]
    constructor
    · intro h
      obtain ⟨details, hdetails⟩ := h.refusal hwide
      unfold finite at hdetails
      split at hdetails
      · cases hdetails
      · exact Bool.not_eq_true _ ▸ ‹_›
    · intro hfinite
      refine ⟨fun r hr => absurd (hr ▸ Integer.inRange_toInt r) hwide, fun _ => ?_⟩
      exact ⟨_, if_neg (Bool.not_eq_true _ ▸ hfinite)⟩
  · refine iff_of_false (fun h => ?_) fun h => hbase h.1
    have hrange : Integer.InRange (base ^ exponent) := inRange_pow (by omega)
    obtain ⟨r, hr⟩ := Integer.exists_toInt hrange
    exact finite_ne_integer r (h.power r hr)

end

/-- A power to a natural exponent is exact if the exponent has thirty-two bits. To a larger exponent it
is no integer, which is right only for a base whose powers leave the range and, as floats, the finite
numbers. -/
theorem pow_exact_iff (b e : Int64) (h : 0 ≤ e.toInt) :
    (IsExactPower b.toInt e.toInt.toNat (pow.apply [.integer b, .integer e]) ↔
        e.toInt < 0x100000000 ∨
          2 ≤ b.toInt.natAbs ∧ ((Float.ofInt b.toInt).pow (Float.ofInt e.toInt)).isFinite = false) ∧
      (0x100000000 ≤ e.toInt → ∀ r, pow.apply [.integer b, .integer e] ≠ .ok (.integer r)) := by
  by_cases hword : e.toInt < 0x100000000
  · exact ⟨iff_of_true (pow_of_lt h hword) (.inl hword), fun hlarge => absurd hword (by omega)⟩
  · have hpow := pow_of_le (b := b) (Int.not_lt.1 hword)
    refine ⟨?_, fun _ r => hpow ▸ finite_ne_integer r⟩
    rw [hpow, finite_isExactPower (by omega), or_iff_right hword]

/-- The least integer is a power of minus two. -/
theorem pow_exact_iff_least :
    0 ≤ (63 : Int64).toInt ∧ IsExactPower (-2) 63 (pow.apply [.integer (-2), .integer 63]) := by
  have h : 0 ≤ (63 : Int64).toInt := by decide
  exact ⟨h, (pow_exact_iff (-2) 63 h).1.2 (.inl (by decide))⟩

/-- One to an exponent of thirty-three bits is one, and the answer is no integer. -/
theorem pow_one_not_exact :
    (1 : Int64).toInt = 1 ^ (0x100000000 : Int64).toInt.toNat ∧
      (∀ r, pow.apply [.integer 1, .integer 0x100000000] ≠ .ok (.integer r)) ∧
      ¬IsExactPower 1 (0x100000000 : Int64).toInt.toNat
        (pow.apply [.integer 1, .integer 0x100000000]) := by
  have hone : (1 : Int64).toInt = 1 ^ (0x100000000 : Int64).toInt.toNat := Int.one_pow.symm
  have hnever : ∀ r, pow.apply [.integer 1, .integer 0x100000000] ≠ .ok (.integer r) := fun r =>
    pow_of_le (b := 1) (e := 0x100000000) (by decide) ▸ finite_ne_integer r
  exact ⟨hone, hnever, fun h => hnever 1 (h.power 1 hone)⟩

end Variorum.Library
