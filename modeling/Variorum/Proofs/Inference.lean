import Variorum.Document.Basic
import Variorum.Evaluation.Arithmetic
import Variorum.Proofs.Decimal.Notation

/-!
# Inferred values

A value that is inferred from its display is itself, and so is every value that was inferred from a text:
displaying it and reading it again, by inference, by a cast or out of a document, keeps its type and its
value.
-/

namespace Variorum.Value

variable {v : Value}

/-- The values that texts stand for: every integer, the finite floats, and the texts that are neither. -/
inductive Inferred : Value → Prop
  | integer {i} : Inferred (.integer i)
  | float {x} (hfinite : x.isFinite = true) : Inferred (.float x)
  | text {s} (hinteger : Decimal.readInteger? s.toList = none)
      (hfloat : ∀ x, Decimal.readFloat? s.toList = some x → x.isFinite = false) : Inferred (.text s)

theorem inferred_infer (s : String) : Inferred (infer s) := by
  unfold infer
  cases hinteger : Decimal.readInteger? s.toList with
  | some i => exact .integer
  | none =>
    cases hread : Decimal.readFloat? s.toList with
    | none => exact .text hinteger (by simp [hread])
    | some x =>
      show Inferred (if x.isFinite then .float x else .text s)
      cases hfinite : x.isFinite with
      | true => exact .float hfinite
      | false => exact .text hinteger (by simp [hread, hfinite])

theorem infer_text {s : String} (hinteger : Decimal.readInteger? s.toList = none)
    (hfloat : ∀ x, Decimal.readFloat? s.toList = some x → x.isFinite = false) : infer s = .text s := by
  rw [infer, hinteger]
  cases hread : Decimal.readFloat? s.toList with
  | none => rfl
  | some x => exact if_neg (by simp [hfloat x hread])

/-- An inferred value is inferred from its display. -/
theorem Inferred.infer_display (h : Inferred v) : infer v.display = v := by
  cases h with
  | integer => rw [infer, display, Decimal.readInteger?_toString]
  | float hfinite =>
    rw [infer, display, Decimal.readInteger?_marked hfinite, Decimal.readFloat?_marked hfinite]
    exact if_pos hfinite
  | text hinteger hfloat => exact infer_text hinteger hfloat

theorem infer_display_iff : infer v.display = v ↔ Inferred v :=
  ⟨fun h => h ▸ inferred_infer v.display, Inferred.infer_display⟩

/-- Inference is stable under display: what was inferred from a text keeps its type and its value when it is
displayed and read again. So do every integer and every finite float, and of the texts those that are no
numeral. -/
theorem infer_display_infer :
    (∀ s : String, infer (infer s).display = infer s) ∧ ∀ v : Value, infer v.display = v ↔ Inferred v :=
  ⟨fun s => (inferred_infer s).infer_display, fun _ => infer_display_iff⟩

/-- However an integer is spelled, it is displayed without a plus and without zeros before its digits. -/
theorem display_infer_plus_zeros {ds : List Char} {i : Int64} (h : Decimal.isDigits ds = true)
    (hread : Decimal.readInteger? ds = some i) (k : Nat) :
    (infer (String.ofList ('+' :: (List.replicate k '0' ++ ds)))).display = toString i.toInt := by
  have hspelled := (Decimal.readInteger?_plus_zeros h k).trans hread
  rw [infer, String.toList_ofList, hspelled, display]

example : (infer "+007").display = "7" := by decide +kernel

/-! ## Other readers -/

/-- The type that a cast must name to keep the type of a value. -/
def castType : Value → CastType
  | .text _ => .str
  | .integer _ => .int
  | .float _ => .float

theorem castTo_int {i : Int64} (h : Decimal.readInteger? v.display.toList = some i) :
    castTo .int v = .ok (.integer i) := by
  unfold castTo
  dsimp only
  rw [h]

theorem castTo_float {x : Float} (h : Decimal.readFloat? v.display.toList = some x)
    (hfinite : x.isFinite = true) : castTo .float v = .ok (.float x) := by
  unfold castTo
  dsimp only
  rw [h]
  exact if_pos hfinite

/-- A cast reads an inferred value from its display. -/
theorem Inferred.castTo_display (h : Inferred v) : castTo v.castType (.text v.display) = .ok v := by
  cases h with
  | integer => exact castTo_int (Decimal.readInteger?_toString _)
  | float hfinite => exact castTo_float (Decimal.readFloat?_marked hfinite) hfinite
  | text => rfl

/-- A document has an inferred value back from a string that displays it. -/
theorem Inferred.ofTree_display {units : Json.Units} (h : Inferred v)
    (hunits : units.text? = some v.display) : ofTree (.text units) = .ok v := by
  rw [ofTree, hunits]
  exact congrArg _ h.infer_display

end Variorum.Value
