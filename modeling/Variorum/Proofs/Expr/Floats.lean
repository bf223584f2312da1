import Variorum.Proofs.Decimal.Notation
import Variorum.Proofs.Expr.Scanning

/-!
# Displayed floats

The display of a finite float is a numeral of the grammar, behind a minus or not, which is read as the
magnitude of the float.
-/

namespace Variorum.Expr

open Token

variable {numeral : List Char} {x : Float}

theorem exponentPart_toString (p : Int) : ExponentPart ('e' :: (toString p).toList) := by
  rw [Decimal.toList_toString]
  have hplain : [] ∈ [[], ['+'], ['-']] := by simp
  have hminus : ['-'] ∈ [[], ['+'], ['-']] := by simp
  split
  · exact .intro (.inl rfl) hplain (Decimal.isDigits_toDigits _)
  · exact .intro (.inl rfl) hminus (Decimal.isDigits_toDigits _)

theorem floatNumeral_of_writes {d : Decimal} (h : Decimal.Writes numeral d) : FloatNumeral numeral := by
  cases h with
  | point hwhole hfraction => exact .fraction hwhole hfraction
  | power hwhole => exact .exponent hwhole (exponentPart_toString _)
  | both hwhole hfraction => exact .both hwhole hfraction (exponentPart_toString _)

/-- The magnitude of a finite float is displayed as a numeral that is read as it. -/
theorem exists_numeral (h : x.isFinite = true) : ∃ numeral, FloatNumeral numeral ∧
    Decimal.readFloat? numeral = some x.abs ∧
    (Value.float x).display =
      String.ofList (if Binary64.isNegative x then '-' :: numeral else numeral) := by
  obtain ⟨body, d, hmarked, hwrites, hdenotes⟩ := Decimal.marked_eq h
  refine ⟨body, floatNumeral_of_writes hwrites, hwrites.readFloat? hdenotes, ?_⟩
  rw [← String.toList_inj, String.toList_ofList, Value.display, hmarked, Decimal.toList_ofMagnitude h]

/-- A float is displayed as a numeral of the grammar which is read as the same float. -/
def ReadsBack (x : Float) : Prop :=
  FloatNumeral (Value.float x).display.toList ∧
    Decimal.readFloat? (Value.float x).display.toList = some x

/-- Every finite float without a sign is read back from its display. -/
theorem readsBack (h : x.isFinite = true) (hsign : Binary64.isNegative x = false) : ReadsBack x := by
  obtain ⟨numeral, hnumeral, hread, hdisplay⟩ := exists_numeral h
  have habs := Binary64.signed_abs h
  rw [hsign, if_neg Bool.false_ne_true] at habs hdisplay
  rw [habs] at hread
  rw [ReadsBack, hdisplay, String.toList_ofList]
  exact ⟨hnumeral, hread⟩

end Variorum.Expr
