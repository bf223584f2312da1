import Variorum.Proofs.Evaluation.Integers
import Variorum.Proofs.Expr.Completeness
import Variorum.Proofs.Expr.Literals
import Variorum.Proofs.Expr.Scanning

/-!
# Displayed integers

A minus is no part of a literal: behind it the digits are a literal of their own, which has to be in range
before it is negated. Of the machine integers this leaves out the least one.
-/

namespace Variorum

namespace Decimal

theorem readInteger?_toDigits (n : Nat) : readInteger? (Nat.toDigits 10 n) = Integer.ofInt? n := by
  have hdigits : IsDigits (Nat.toDigits 10 n) := isDigits_toDigits n
  rw [readInteger?_signed (.inl hdigits), signedValue_digits hdigits, digitsValue_toDigits]

end Decimal

namespace Expr

variable {ds : List Char} {i : Int64}

/-! ## Reading -/

theorem parse_digits (h : IsDigits ds) (hread : Decimal.readInteger? ds = some i) (line : Nat) :
    parse (String.ofList ds) line = .ok (.literal line (.integer i)) := by
  have hderives := (Derives.integer ds ⟨line, 1⟩).mono (m := .sum) (by decide)
  have hscan : Token.scan ⟨line, 1⟩ (String.ofList ds).toList = [⟨.integer ds, ⟨line, 1⟩⟩] := by
    rw [String.toList_ofList]
    exact (Token.scans_integer h).scan
  rw [← hscan, ofInteger_inRange hread] at hderives
  exact parse_of_derives hderives

theorem parse_minus_digits (h : IsDigits ds) (line : Nat) :
    parse (String.ofList ('-' :: ds)) line =
      match Decimal.readInteger? ds with
      | some i => .ok (.negation line (.literal line (.integer i)))
      | none => .error (Literal.error ⟨.integer, ⟨line, 2⟩, ds⟩) := by
  have hoperand := (Derives.integer ds ⟨line, 2⟩).mono (m := .unary) (by decide)
  have hderives := (Derives.negation ⟨line, 1⟩ hoperand).mono (m := .sum) (by decide)
  have hscan : Token.scan ⟨line, 1⟩ (String.ofList ('-' :: ds)).toList =
      [⟨.symbol '-', ⟨line, 1⟩⟩, ⟨.integer ds, ⟨line, 2⟩⟩] := by
    rw [String.toList_ofList]
    exact (Token.Scans.mark (by decide) (Token.scans_integer h)).scan
  rw [← hscan] at hderives
  rw [parse_of_derives hderives]
  cases hread : Decimal.readInteger? ds with
  | some i =>
      rw [ofInteger_inRange hread]
      rfl
  | none =>
      rw [ofInteger_outOfRange hread]
      rfl

/-! ## What is displayed of an integer -/

theorem parse_display_of_nonneg (h : 0 ≤ i.toInt) (line : Nat) :
    parse (Value.integer i).display line = .ok (.literal line (.integer i)) := by
  have hdisplay : (Value.integer i).display = String.ofList (Nat.toDigits 10 i.toInt.toNat) := by
    rw [← String.toList_inj, String.toList_ofList, Value.display, Decimal.toList_toString, if_pos h]
  rw [hdisplay]
  refine parse_digits (Decimal.isDigits_toDigits _) ?_ line
  rw [Decimal.readInteger?_toDigits, Int.toNat_of_nonneg h, Integer.ofInt?_toInt]

theorem parse_display_of_neg (h : i.toInt < 0) (line : Nat) :
    parse (Value.integer i).display line =
      match Integer.ofInt? (-i.toInt) with
      | some j => .ok (.negation line (.literal line (.integer j)))
      | none => .error (Literal.error ⟨.integer, ⟨line, 2⟩, Nat.toDigits 10 (-i.toInt).toNat⟩) := by
  have hdisplay : (Value.integer i).display =
      String.ofList ('-' :: Nat.toDigits 10 (-i.toInt).toNat) := by
    rw [← String.toList_inj, String.toList_ofList, Value.display, Decimal.toList_toString,
      if_neg (Int.not_le.2 h)]
  rw [hdisplay, parse_minus_digits (Decimal.isDigits_toDigits _), Decimal.readInteger?_toDigits,
    Int.toNat_of_nonneg (by omega)]

theorem parse_display_least (line : Nat) :
    parse (Value.integer Int64.minValue).display line =
      .error ⟨line, 2, some "integer literal out of range: 9223372036854775808"⟩ := by
  rw [parse_display_of_neg (by decide)]
  rfl

end Expr

namespace Evaluator

variable {i : Int64}

/-- A literal behind a minus comes to the integer that was displayed. -/
theorem evaluate_negation_literal {j : Int64} (h : j.toInt = -i.toInt) (ev : Evaluator) (ctx : Context)
    (line : Nat) :
    ev.evaluate ctx (.negation line (.literal line (.integer j))) = .done (.integer i) := by
  have hneg : -j.toInt = i.toInt := by rw [h, Int.neg_neg]
  have hnegate : Value.negate (.integer j) = .ok (.integer i) := by
    rw [Value.negate, hneg, Integer.ofInt?_toInt]
  have hreport : ev.evaluate ctx (.negation line (.literal line (.integer j))) =
      Report.ofExcept (Value.negate (.integer j)) := rfl
  rw [hreport, hnegate]
  rfl

theorem exists_evaluate_display (h : i ≠ Int64.minValue) (line : Nat) :
    ∃ e, Expr.parse (Value.integer i).display line = .ok e ∧
      ∀ (ev : Evaluator) (ctx : Context), ev.evaluate ctx e = .done (.integer i) := by
  by_cases hneg : i.toInt < 0
  · obtain ⟨j, hj⟩ := Integer.exists_toInt ((Integer.inRange_neg_toInt i).2 h)
    refine ⟨.negation line (.literal line (.integer j)), ?_, fun ev ctx =>
      evaluate_negation_literal hj ev ctx line⟩
    rw [Expr.parse_display_of_neg hneg, ← hj, Integer.ofInt?_toInt]
  · exact ⟨.literal line (.integer i), Expr.parse_display_of_nonneg (Int.not_lt.1 hneg) line,
      fun _ _ => rfl⟩

/-- What is displayed of a machine integer is an expression that comes to it in every context, unless it
is the least one. That one is refused, because its digits without the minus are out of range. -/
theorem evaluate_display_iff (i : Int64) (line : Nat) :
    ((∃ e, Expr.parse (Value.integer i).display line = .ok e ∧
        ∀ (ev : Evaluator) (ctx : Context), ev.evaluate ctx e = .done (.integer i)) ↔
      i ≠ Int64.minValue) ∧
    ∀ error, Expr.parse (Value.integer i).display line = .error error ↔
      i = Int64.minValue ∧
        error = ⟨line, 2, some "integer literal out of range: 9223372036854775808"⟩ := by
  by_cases h : i = Int64.minValue
  · subst h
    rw [Expr.parse_display_least]
    refine ⟨iff_of_false ?_ (fun hne => hne rfl), fun error => ?_⟩
    · rintro ⟨e, he, -⟩
      cases he
    · rw [Except.error.injEq]
      exact ⟨fun he => ⟨rfl, he.symm⟩, fun he => he.2.symm⟩
  · obtain ⟨e, he, hvalue⟩ := exists_evaluate_display h line
    refine ⟨iff_of_true ⟨e, he, hvalue⟩ h, fun error => iff_of_false ?_ fun hleast => h hleast.1⟩
    rw [he]
    exact nofun

/-- The least machine integer is displayed as what is no expression. -/
theorem least_not_an_expression :
    (Value.integer Int64.minValue).display = "-9223372036854775808" ∧
      Expr.parse "-9223372036854775808" 1 =
        .error ⟨1, 2, some "integer literal out of range: 9223372036854775808"⟩ ∧
      ¬∀ i : Int64, ∃ e, Expr.parse (Value.integer i).display 1 = .ok e ∧
        ∀ (ev : Evaluator) (ctx : Context), ev.evaluate ctx e = .done (.integer i) := by
  have hdisplay : (Value.integer Int64.minValue).display = "-9223372036854775808" := by
    decide +kernel
  have hparse := Expr.parse_display_least 1
  refine ⟨hdisplay, hdisplay ▸ hparse, fun h => ?_⟩
  obtain ⟨e, he, -⟩ := h Int64.minValue
  rw [hparse] at he
  cases he

end Evaluator

end Variorum
