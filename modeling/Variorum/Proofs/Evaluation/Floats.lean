import Variorum.Evaluation.Evaluator
import Variorum.Proofs.Expr.RoundTrip

/-!
# Evaluating displayed floats

The display of a finite float is an expression, which comes to the float in every context.
-/

namespace Variorum

namespace Expr

variable {x : Float}

theorem parse_display_unsigned (h : x.isFinite = true) (hsign : Binary64.isNegative x = false)
    (line : Nat) : parse (Value.float x).display line = .ok (.literal line (.float x)) :=
  (PrintsAs.float h (readsBack h hsign)).parse_eq_ok rfl

theorem parse_display_signed (h : x.isFinite = true) (hsign : Binary64.isNegative x = true)
    (line : Nat) : parse (Value.float x).display line = .ok (.negation line (.literal line (.float x.abs))) := by
  obtain ⟨numeral, hnumeral, hread, hdisplay⟩ := exists_numeral h
  rw [hsign, if_pos rfl] at hdisplay
  have hoperand := (Derives.float numeral ⟨line, 2⟩).mono (m := .unary) (by decide)
  have hderives := (Derives.negation ⟨line, 1⟩ hoperand).mono (m := .sum) (by decide)
  have hscan : Token.scan ⟨line, 1⟩ (Value.float x).display.toList =
      [⟨.symbol '-', ⟨line, 1⟩⟩, ⟨.float numeral, ⟨line, 2⟩⟩] := by
    rw [hdisplay, String.toList_ofList]
    exact (Token.Scans.mark (by decide) (Token.scans_float hnumeral)).scan
  rw [← hscan] at hderives
  rw [parse_of_derives hderives]
  simp only [ofFloat, hread, if_pos (Binary64.isFinite_abs h)]
  rfl

end Expr

/-- What is displayed of a finite float is an expression that comes to it in every context. -/
theorem Evaluator.exists_evaluate_display_float {x : Float} (h : x.isFinite = true) (line : Nat) :
    ∃ e, Expr.parse (Value.float x).display line = .ok e ∧
      ∀ (ev : Evaluator) (ctx : Context), ev.evaluate ctx e = .done (.float x) := by
  have hsigned := Binary64.signed_abs h
  cases hsign : Binary64.isNegative x with
  | false =>
    exact ⟨.literal line (.float x), Expr.parse_display_unsigned h hsign line, fun _ _ => rfl⟩
  | true =>
    rw [hsign, if_pos rfl] at hsigned
    refine ⟨_, Expr.parse_display_signed h hsign line, fun ev ctx => ?_⟩
    show Report.ofExcept (.ok (Value.float (-x.abs))) = .done (.float x)
    rw [hsigned]
    rfl

end Variorum
