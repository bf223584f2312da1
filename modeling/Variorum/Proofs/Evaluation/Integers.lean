import Variorum.Evaluation.Evaluator
import Variorum.Proofs.Except
import Variorum.Proofs.Integer

/-!
# Integer expressions

An expression of integers, names bound to integers and operators has an exact value, unless it divides by
zero. It evaluates to that value if it and all expressions in it are in range, and else it is refused.
-/

namespace Variorum

/-! ## Operations -/

namespace BinaryOp

/-- The exact result of an operation on integers. There is none of a division by zero. -/
inductive Exact : BinaryOp → Int → Int → Int → Prop
  | add {a b : Int} : Exact .add a b (a + b)
  | sub {a b : Int} : Exact .sub a b (a - b)
  | mul {a b : Int} : Exact .mul a b (a * b)
  | div {a b q r : Int} (h : Division a b q r) : Exact .div a b q
  | rem {a b q r : Int} (h : Division a b q r) : Exact .rem a b r

theorem exact_iff {op : BinaryOp} {a b r : Int} :
    op.Exact a b r ↔ (op.divides = true → b ≠ 0) ∧ op.onInt a b = r := by
  constructor
  · intro h
    cases h with
    | add => exact ⟨nofun, rfl⟩
    | sub => exact ⟨nofun, rfl⟩
    | mul => exact ⟨nofun, rfl⟩
    | div h => exact ⟨fun _ => (division_iff.1 h).1, (division_iff.1 h).2.1⟩
    | rem h => exact ⟨fun _ => (division_iff.1 h).1, (division_iff.1 h).2.2⟩
  · rintro ⟨hzero, rfl⟩
    cases op with
    | add => exact .add
    | sub => exact .sub
    | mul => exact .mul
    | div => exact .div (division_iff.2 ⟨hzero rfl, rfl, rfl⟩)
    | rem => exact .rem (division_iff.2 ⟨hzero rfl, rfl, rfl⟩)

/-- An operation that is not refused: it has an exact result in range, and it is not the remainder of
the least integer by minus one. -/
structure Admits (op : BinaryOp) (a b : Int) : Prop where
  inRange : ∃ r, op.Exact a b r ∧ Integer.InRange r
  remainder : ¬(op = .rem ∧ a = Int64.minValue.toInt ∧ b = -1)

variable {op : BinaryOp} {a b : Int}

theorem admits_iff (ha : Integer.InRange a) :
    op.Admits a b ↔
      (op.divides = true → b ≠ 0 ∧ Integer.InRange (a.tdiv b)) ∧ Integer.InRange (op.onInt a b) := by
  constructor
  · rintro ⟨⟨r, hexact, hrange⟩, hrem⟩
    obtain ⟨hzero, rfl⟩ := exact_iff.1 hexact
    refine ⟨fun hdivides => ⟨hzero hdivides, ?_⟩, hrange⟩
    cases op with
    | add => cases hdivides
    | sub => cases hdivides
    | mul => cases hdivides
    | div => exact hrange
    | rem => exact (Integer.inRange_tdiv ha (hzero rfl)).2 fun h => hrem ⟨rfl, h⟩
  · rintro ⟨hquotient, hrange⟩
    refine ⟨⟨_, exact_iff.2 ⟨fun hdivides => (hquotient hdivides).1, rfl⟩, hrange⟩, ?_⟩
    rintro ⟨rfl, h⟩
    obtain ⟨hzero, hfits⟩ := hquotient rfl
    exact (Integer.inRange_tdiv ha hzero).1 hfits h

end BinaryOp

namespace Value

variable {op : BinaryOp} {a b i : Int64}

theorem integerOp_of_admits (h : op.Admits a.toInt b.toInt) :
    ∃ r, integerOp op a b = .ok (.integer r) ∧ op.Exact a.toInt b.toInt r.toInt := by
  obtain ⟨hquotient, hrange⟩ := (BinaryOp.admits_iff (Integer.inRange_toInt a)).1 h
  obtain ⟨r, hr⟩ := Integer.exists_toInt hrange
  refine ⟨r, ?_, BinaryOp.exact_iff.2 ⟨fun hdivides => (hquotient hdivides).1, hr.symm⟩⟩
  have hzero : ¬(op.divides && b == 0) = true := by
    rw [Bool.and_eq_true, beq_iff_eq]
    rintro ⟨hdivides, rfl⟩
    exact (hquotient hdivides).1 rfl
  have hwide : ¬(op.divides && (Integer.ofInt? (a.toInt.tdiv b.toInt)).isNone) = true := by
    rw [Bool.and_eq_true, Option.isNone_iff_eq_none, Integer.ofInt?_eq_none]
    rintro ⟨hdivides, hnot⟩
    exact hnot (hquotient hdivides).2
  rw [integerOp, if_neg hzero, if_neg hwide, ← hr, Integer.ofInt?_toInt]

theorem integerOp_of_not_admits (h : ¬op.Admits a.toInt b.toInt) :
    ∃ details, integerOp op a b = .error (.invalidArgument details) := by
  unfold integerOp
  split
  · exact ⟨_, rfl⟩
  · split
    · exact ⟨_, rfl⟩
    · rename_i hzero hwide
      have hrange : ¬Integer.InRange (op.onInt a.toInt b.toInt) := by
        intro hrange
        refine h ((BinaryOp.admits_iff (Integer.inRange_toInt a)).2 ⟨fun hdivides => ⟨?_, ?_⟩, hrange⟩)
        · intro hb
          exact hzero (by rw [hdivides, Bool.true_and, beq_iff_eq]; exact Int64.toInt_inj.1 hb)
        · refine Classical.not_not.1 fun hnot => hwide ?_
          rw [hdivides, Integer.ofInt?_eq_none.2 hnot]
          rfl
      rw [Integer.ofInt?_eq_none.2 hrange]
      exact ⟨_, rfl⟩

theorem negate_integer (h : Integer.InRange (-a.toInt)) :
    ∃ r : Int64, negate (.integer a) = .ok (.integer r) ∧ -a.toInt = r.toInt := by
  obtain ⟨r, hr⟩ := Integer.exists_toInt h
  exact ⟨r, by rw [negate, ← hr, Integer.ofInt?_toInt], hr.symm⟩

theorem negate_least (h : ¬Integer.InRange (-a.toInt)) :
    ∃ details, negate (.integer a) = .error (.invalidArgument details) := by
  rw [negate, Integer.ofInt?_eq_none.2 h]
  exact ⟨_, rfl⟩

end Value

/-! ## Expressions -/

namespace Expr

/-- An expression of integers, names that are bound to integers, the binary operators and the minus. -/
inductive IsIntegral (ctx : Context) : Expr → Prop
  | literal {line : Nat} {i : Int64} : IsIntegral ctx (.literal line (.integer i))
  | name {line : Nat} {x : String} {i : Int64} (hbound : ctx.lookup? x = some (.integer i)) :
      IsIntegral ctx (.name line x)
  | binary {line : Nat} {op : BinaryOp} {left right : Expr} (hleft : IsIntegral ctx left)
      (hright : IsIntegral ctx right) : IsIntegral ctx (.binary line op left right)
  | negation {line : Nat} {operand : Expr} (h : IsIntegral ctx operand) :
      IsIntegral ctx (.negation line operand)

/-- What an expression of integers comes to where no integer is too large. -/
inductive ExactValue (ctx : Context) : Expr → Int → Prop
  | literal {line : Nat} {i : Int64} : ExactValue ctx (.literal line (.integer i)) i.toInt
  | name {line : Nat} {x : String} {i : Int64} (hbound : ctx.lookup? x = some (.integer i)) :
      ExactValue ctx (.name line x) i.toInt
  | binary {line : Nat} {op : BinaryOp} {left right : Expr} {a b r : Int}
      (hleft : ExactValue ctx left a) (hright : ExactValue ctx right b) (h : op.Exact a b r) :
      ExactValue ctx (.binary line op left right) r
  | negation {line : Nat} {operand : Expr} {a : Int} (h : ExactValue ctx operand a) :
      ExactValue ctx (.negation line operand) (-a)

/-- The expression has an exact value in range, does not divide by zero, and is not the remainder of the
least integer by minus one. -/
structure IsSound (ctx : Context) (e : Expr) : Prop where
  inRange : ∃ r, e.ExactValue ctx r ∧ Integer.InRange r
  divisor : ∀ line op left right, e = .binary line op left right → op.divides = true →
    ¬right.ExactValue ctx 0
  remainder : ∀ line left right, e = .binary line .rem left right →
    ¬(left.ExactValue ctx Int64.minValue.toInt ∧ right.ExactValue ctx (-1))

variable {ctx : Context} {e left right operand : Expr} {line : Nat} {op : BinaryOp} {a b r r' : Int}

theorem ExactValue.unique (h : e.ExactValue ctx r) (h' : e.ExactValue ctx r') : r' = r := by
  induction h generalizing r' with
  | literal =>
      cases h'
      rfl
  | name hbound =>
      cases h' with
      | name hbound' =>
          cases hbound.symm.trans hbound'
          rfl
  | binary _ _ hop ihleft ihright =>
      cases h' with
      | binary hleft' hright' hop' =>
          cases ihleft hleft'
          cases ihright hright'
          exact (BinaryOp.exact_iff.1 hop').2.symm.trans (BinaryOp.exact_iff.1 hop).2
  | negation _ ih =>
      cases h' with
      | negation h' => rw [ih h']

theorem isSound_literal {i : Int64} : IsSound ctx (.literal line (.integer i)) :=
  ⟨⟨_, .literal, Integer.inRange_toInt i⟩, nofun, nofun⟩

theorem isSound_name {x : String} {i : Int64} (hbound : ctx.lookup? x = some (.integer i)) :
    IsSound ctx (.name line x) :=
  ⟨⟨_, .name hbound, Integer.inRange_toInt i⟩, nofun, nofun⟩

theorem isSound_negation (h : operand.ExactValue ctx a) :
    IsSound ctx (.negation line operand) ↔ Integer.InRange (-a) := by
  constructor
  · rintro ⟨⟨_, hexact, hrange⟩, -, -⟩
    cases hexact with
    | negation h' => rwa [← h.unique h']
  · intro hrange
    exact ⟨⟨_, .negation h, hrange⟩, nofun, nofun⟩

theorem isSound_binary (hleft : left.ExactValue ctx a) (hright : right.ExactValue ctx b) :
    IsSound ctx (.binary line op left right) ↔ op.Admits a b := by
  constructor
  · rintro ⟨⟨r, hexact, hrange⟩, -, hrem⟩
    cases hexact with
    | binary hleft' hright' h =>
        cases hleft.unique hleft'
        cases hright.unique hright'
        refine ⟨⟨r, h, hrange⟩, ?_⟩
        rintro ⟨rfl, rfl, rfl⟩
        exact hrem _ _ _ rfl ⟨hleft, hright⟩
  · rintro ⟨⟨r, h, hrange⟩, hrem⟩
    refine ⟨⟨r, .binary hleft hright h, hrange⟩, ?_, ?_⟩
    · rintro _ _ _ _ ⟨⟩ hdivides hzero
      exact (BinaryOp.exact_iff.1 h).1 hdivides (hzero.unique hright)
    · rintro _ _ _ ⟨⟩ ⟨hmin, hminus⟩
      exact hrem ⟨rfl, hmin.unique hleft, hminus.unique hright⟩

end Expr

/-! ## Evaluation -/

namespace Evaluator

variable {ev : Evaluator} {ctx : Context} {e : Expr} {expand : Expansion}

/-- An answer that is exact if all expressions in `e` are sound, and else a refusal. -/
def Settles (ctx : Context) (e : Expr) (answer : Except Failure Value) : Prop :=
  (∀ x ∈ e.nodes, x.IsSound ctx) ∧ (∃ r, answer = .ok (.integer r) ∧ e.ExactValue ctx r.toInt) ∨
    (¬∀ x ∈ e.nodes, x.IsSound ctx) ∧ ∃ details, answer = .error (.invalidArgument details)

theorem evaluateWith_settles (h : e.IsIntegral ctx) :
    Settles ctx e (ev.evaluateWith expand ctx e).result := by
  induction h with
  | literal => exact .inl ⟨List.forall_mem_singleton.2 Expr.isSound_literal, _, rfl, .literal⟩
  | @name line x i hbound =>
      refine .inl ⟨List.forall_mem_singleton.2 (Expr.isSound_name hbound), i, ?_, .name hbound⟩
      rw [evaluateWith, evaluateName, hbound]
      rfl
  | @negation line operand _ ih =>
      rw [evaluateWith, Report.result_bind]
      rcases ih with ⟨hall, a, ha, hexact⟩ | ⟨hnot, details, hrefused⟩
      · rw [ha, Except.ok_bind, Report.result_ofExcept]
        by_cases hrange : Integer.InRange (-a.toInt)
        · obtain ⟨r, hr, hneg⟩ := Value.negate_integer hrange
          refine .inl ⟨List.forall_mem_cons.2 ⟨(Expr.isSound_negation hexact).2 hrange, hall⟩, r, hr, ?_⟩
          rw [← hneg]
          exact .negation hexact
        · exact .inr ⟨fun h => hrange ((Expr.isSound_negation hexact).1 (List.forall_mem_cons.1 h).1),
            Value.negate_least hrange⟩
      · rw [hrefused]
        exact .inr ⟨fun h => hnot (List.forall_mem_cons.1 h).2, details, rfl⟩
  | @binary line op left right _ _ ihleft ihright =>
      rw [evaluateWith, Report.result_bind]
      rcases ihleft with ⟨hallLeft, a, ha, hleft⟩ | ⟨hnot, details, hrefused⟩
      · rw [ha, Except.ok_bind, Report.result_bind]
        rcases ihright with ⟨hallRight, b, hb, hright⟩ | ⟨hnot, details, hrefused⟩
        · rw [hb, Except.ok_bind, Report.result_ofExcept, Value.binary]
          by_cases hadmits : op.Admits a.toInt b.toInt
          · obtain ⟨r, hr, hexact⟩ := Value.integerOp_of_admits hadmits
            exact .inl ⟨List.forall_mem_cons.2 ⟨(Expr.isSound_binary hleft hright).2 hadmits,
              List.forall_mem_append.2 ⟨hallLeft, hallRight⟩⟩, r, hr, .binary hleft hright hexact⟩
          · exact .inr ⟨fun h => hadmits ((Expr.isSound_binary hleft hright).1 (List.forall_mem_cons.1 h).1),
              Value.integerOp_of_not_admits hadmits⟩
        · rw [hrefused]
          exact .inr ⟨fun h => hnot (List.forall_mem_append.1 (List.forall_mem_cons.1 h).2).2, details, rfl⟩
      · rw [hrefused]
        exact .inr ⟨fun h => hnot (List.forall_mem_append.1 (List.forall_mem_cons.1 h).2).1, details, rfl⟩

/-- An expression of integers evaluates to its exact value, if it and all expressions in it are sound; else
it is refused, and no other integer comes of it. -/
theorem evaluate_integral (ev : Evaluator) (ctx : Context) (e : Expr) (h : e.IsIntegral ctx) :
    ((∃ r, (ev.evaluate ctx e).result = .ok (.integer r)) ↔ ∀ x ∈ e.nodes, x.IsSound ctx) ∧
      (∀ r, (ev.evaluate ctx e).result = .ok (.integer r) → e.ExactValue ctx r.toInt) ∧
      ((¬∀ x ∈ e.nodes, x.IsSound ctx) →
        ∃ details, (ev.evaluate ctx e).result = .error (.invalidArgument details)) := by
  have hsettles : Settles ctx e (ev.evaluate ctx e).result := evaluateWith_settles h
  rcases hsettles with ⟨hall, r, hr, hexact⟩ | ⟨hnot, details, hrefused⟩
  · refine ⟨iff_of_true ⟨r, hr⟩ hall, ?_, fun hnot => absurd hall hnot⟩
    intro r' hr'
    cases hr.symm.trans hr'
    exact hexact
  · refine ⟨iff_of_false ?_ hnot, ?_, fun _ => ⟨details, hrefused⟩⟩
    · rintro ⟨r, hr⟩
      cases hrefused.symm.trans hr
    · intro r hr
      cases hrefused.symm.trans hr

/-- A context in which `x` is the least integer. -/
def leastContext : Context :=
  (Context.root {}).bind "x" (.integer Int64.minValue)

/-- The source `x % -1`. -/
def leastByMinusOne : Expr :=
  .binary 1 .rem (.name 1 "x") (.negation 1 (.literal 1 (.integer 1)))

/-- The remainder of the least integer by minus one is zero, and is refused all the same. -/
theorem evaluate_integral_least :
    leastByMinusOne.IsIntegral leastContext ∧ leastByMinusOne.ExactValue leastContext 0 ∧
      ∃ details, (evaluate { functions := .empty } leastContext leastByMinusOne).result =
        .error (.invalidArgument details) := by
  have hbound : leastContext.lookup? "x" = some (.integer Int64.minValue) := rfl
  have hintegral : leastByMinusOne.IsIntegral leastContext :=
    .binary (.name hbound) (.negation .literal)
  have hleast : Expr.ExactValue leastContext (.name 1 "x") Int64.minValue.toInt := .name hbound
  have hminus : Expr.ExactValue leastContext (.negation 1 (.literal 1 (.integer 1))) (-1) :=
    .negation .literal
  refine ⟨hintegral, .binary hleast hminus (.rem (q := 0x8000000000000000) (by constructor <;> decide)), ?_⟩
  refine (evaluate_integral { functions := .empty } leastContext leastByMinusOne hintegral).2.2 fun h => ?_
  exact (h leastByMinusOne List.mem_cons_self).remainder 1 _ _ rfl ⟨hleast, hminus⟩

end Evaluator

end Variorum
