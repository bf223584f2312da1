import Variorum.Integer

/-!
# Machine integers among the integers

A machine integer is an integer in range, and a division of machine integers leaves the range in one case
only.
-/

namespace Variorum

namespace Integer

theorem inRange_toInt (i : Int64) : InRange i.toInt :=
  ⟨i.le_toInt, i.toInt_lt⟩

theorem ofInt?_toInt (i : Int64) : ofInt? i.toInt = some i := by
  rw [ofInt?, if_pos (inRange_toInt i), Int64.ofInt_toInt]

theorem ofInt?_eq_none {n : Int} : ofInt? n = none ↔ ¬InRange n := by
  unfold ofInt?
  split
  · exact iff_of_false nofun (not_not_intro ‹_›)
  · exact iff_of_true rfl ‹_›

theorem exists_toInt {n : Int} (h : InRange n) : ∃ i : Int64, i.toInt = n := by
  cases hfit : ofInt? n with
  | none => exact absurd h (ofInt?_eq_none.1 hfit)
  | some i => exact ⟨i, toInt_ofInt?_eq hfit⟩

/-- Of the machine integers only the least one cannot be negated. -/
theorem inRange_neg_toInt (i : Int64) : InRange (-i.toInt) ↔ i ≠ Int64.minValue := by
  have hleast : i = Int64.minValue ↔ i.toInt = -0x8000000000000000 := Int64.toInt_inj.symm
  obtain ⟨hlow, hhigh⟩ := inRange_toInt i
  rw [Ne, hleast]
  unfold InRange
  omega

end Integer

/-- A division of integers with its quotient and its remainder, which is smaller than the divisor and on
the dividend's side of zero. -/
structure Division (dividend divisor quotient remainder : Int) : Prop where
  sum : remainder + divisor * quotient = dividend
  small : remainder.natAbs < divisor.natAbs
  above : 0 ≤ dividend → 0 ≤ remainder
  below : dividend ≤ 0 → remainder ≤ 0

/-- Division that cuts towards zero is the only one. -/
theorem division_iff {a b q r : Int} : Division a b q r ↔ b ≠ 0 ∧ a.tdiv b = q ∧ a.tmod b = r := by
  constructor
  · rintro ⟨hsum, hsmall, habove, hbelow⟩
    have hzero : b ≠ 0 := by omega
    rcases Int.le_total 0 a with ha | ha
    · exact ⟨hzero, (Int.tdiv_tmod_unique ha hzero).2 ⟨hsum, habove ha, by omega⟩⟩
    · exact ⟨hzero, (Int.tdiv_tmod_unique' ha hzero).2 ⟨hsum, by omega, hbelow ha⟩⟩
  · rintro ⟨hzero, rfl, rfl⟩
    refine ⟨Int.tmod_add_mul_tdiv a b, ?_, Int.tmod_nonneg b, fun ha => ?_⟩
    · rw [Int.natAbs_tmod]
      exact Nat.mod_lt _ (by omega)
    · have hneg := Int.tmod_nonneg b (Int.neg_nonneg_of_nonpos ha)
      rw [Int.neg_tmod] at hneg
      omega

/-- Of the quotients of machine integers one is too large: that of the least integer and minus one. -/
theorem Integer.inRange_tdiv {a b : Int} (ha : InRange a) (hb : b ≠ 0) :
    InRange (a.tdiv b) ↔ ¬(a = Int64.minValue.toInt ∧ b = -1) := by
  have hmin : Int64.minValue.toInt = -0x8000000000000000 := rfl
  obtain ⟨hlow, hhigh⟩ := ha
  rw [hmin]
  by_cases hminus : b = -1
  · subst hminus
    rw [Int.tdiv_neg, Int.tdiv_one]
    unfold InRange
    omega
  · refine iff_of_true ?_ fun h => hminus h.2
    have habs := Int.natAbs_tdiv a b
    by_cases hone : b = 1
    · rw [hone, Int.tdiv_one]
      exact ⟨hlow, hhigh⟩
    · have hhalf : a.natAbs.div b.natAbs ≤ a.natAbs / 2 := Nat.div_le_div_left (by omega) (by decide)
      unfold InRange
      omega

end Variorum
