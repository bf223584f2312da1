import Variorum.Proofs.Decimal.Digits
import Variorum.Proofs.Integer

/-!
# Integers are read back from their digits

The decimal form of every machine integer is a numeral of that integer, the least one included.
-/

namespace Variorum.Decimal

theorem readNat?_toDigits {bound n : Nat} (h : n < bound) :
    readNat? bound (Nat.toDigits 10 n) = some n := by
  have hvalue := digitsValue_toDigits n
  rw [readNat?, if_pos (isDigits_toDigits n), boundedValue_of_lt (by omega), hvalue]

theorem splitSign_digits {ds : List Char} (h : isDigits ds = true) : splitSign ds = (false, ds) := by
  unfold splitSign
  split
  · simp [isDigits] at h
  · simp [isDigits] at h
  · rfl

/-- A plus and zeros before the digits do not change the integer. -/
theorem readInteger?_plus_zeros {ds : List Char} (h : isDigits ds = true) (k : Nat) :
    readInteger? ('+' :: (List.replicate k '0' ++ ds)) = readInteger? ds := by
  have hvalue := boundedValue_replicate (show 0 < Integer.wordCount by decide) k ds
  have hnat : readNat? Integer.wordCount (List.replicate k '0' ++ ds) = readNat? Integer.wordCount ds := by
    rw [readNat?, readNat?, isDigits_replicate h, h, hvalue]
  have hplus : splitSign ('+' :: (List.replicate k '0' ++ ds)) =
      (false, List.replicate k '0' ++ ds) := rfl
  simp only [readInteger?, readInt?, hplus, splitSign_digits h, hnat]

/-! ## The decimal form of an integer -/

theorem toList_toString (i : Int) :
    (toString i).toList =
      if 0 ≤ i then Nat.toDigits 10 i.toNat else '-' :: Nat.toDigits 10 (-i).toNat := by
  rw [Int.toString_eq_repr, Int.repr_eq_if]
  split
  · exact Nat.toList_repr
  · rw [String.toList_append, Nat.toList_repr]
    rfl

theorem readInt?_toString {bound : Nat} {i : Int} (h : i.natAbs < bound) :
    readInt? bound (toString i).toList = some i := by
  rw [toList_toString]
  split
  · have hread := readNat?_toDigits (show i.toNat < bound by omega)
    simp only [readInt?, splitSign_digits (isDigits_toDigits _), hread]
    exact congrArg some (Int.toNat_of_nonneg ‹_›)
  · have hread := readNat?_toDigits (show (-i).toNat < bound by omega)
    simp only [readInt?, splitSign, hread]
    show some (-((-i).toNat : Int)) = some i
    rw [Int.toNat_of_nonneg (by omega), Int.neg_neg]

/-- Every machine integer is read back from its decimal form. -/
theorem readInteger?_toString (i : Int64) : readInteger? (toString i.toInt).toList = some i := by
  have hlow := i.le_toInt
  have hhigh := i.toInt_lt
  have hword : i.toInt.natAbs < Integer.wordCount := by
    simp only [Integer.wordCount]
    omega
  rw [readInteger?, readInt?_toString hword, Option.bind_some, Integer.ofInt?_toInt]

/-- The decimal form of an integer has no other characters than digits and the minus. -/
theorem mem_toString {i : Int} {c : Char} (h : c ∈ (toString i).toList) :
    c.isDigit = true ∨ c = '-' := by
  rw [toList_toString] at h
  split at h
  · exact .inl (isDigit_of_mem_toDigits h)
  · rcases List.mem_cons.1 h with rfl | h
    · exact .inr rfl
    · exact .inl (isDigit_of_mem_toDigits h)

end Variorum.Decimal
