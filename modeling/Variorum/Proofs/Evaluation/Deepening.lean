import Variorum.Proofs.Evaluation.Sameness
import Variorum.Proofs.Library.Refusals

/-!
# Deeper nesting

Where macro calls may nest deeper, an evaluation comes to the same and records the same, unless it
failed for the depth of its calls.
-/

namespace Variorum

/-! ## Reports of lists -/

namespace Report

variable {ε α β : Type} {C : ε → Prop} {f g : α → Report ε β}

theorem SameUnless.of_fails {e : ε} {s : Report ε α} (h : C e) : (fail e).SameUnless C s :=
  fun hfails => absurd h (hfails e (Eq.refl _))

theorem SameUnless.mapM (h : ∀ a, (f a).SameUnless C (g a)) (as : List α) :
    (as.mapM f).SameUnless C (as.mapM g) := by
  induction as with
  | nil => exact .rfl
  | cons a as ih =>
      rw [List.mapM_cons, List.mapM_cons]
      exact (h a).bind fun _ _ => ih.bind fun _ _ => .rfl

theorem SameUnless.mapM_option (h : ∀ a, (f a).SameUnless C (g a)) (o : Option α) :
    (o.mapM f).SameUnless C (o.mapM g) := by
  cases o with
  | none => exact .rfl
  | some a => exact (h a).bind fun _ _ => .rfl

end Report

namespace Evaluator

variable {ev ev' : Evaluator}

theorem chooseBody_alike (halike : ev.Alike ev') {m : Macro} {ctx : Context} :
    ev.chooseBody m ctx = ev'.chooseBody m ctx := by
  unfold chooseBody chooseIndex warnUnselected
  rw [halike.subject]

/-- The induction is on the smaller budget. Where it is spent, the call fails for its depth, unless its
arguments are too many or too few, which is found with any budget. -/
theorem expandWithin_deeper (halike : ev.Alike ev') {budget budget' : Nat} (hle : budget ≤ budget')
    (m : Macro) (args : List Value) (ctx : Context) :
    (ev.expandWithin budget m args ctx).SameUnless Failure.IsCyclic
      (ev'.expandWithin budget' m args ctx) := by
  induction budget generalizing budget' m args ctx with
  | zero =>
      cases budget' with
      | zero => exact Report.SameUnless.rfl.bind fun _ _ => .of_fails trivial
      | succ budget' => exact Report.SameUnless.rfl.bind fun _ _ => .of_fails trivial
  | succ budget ih =>
      obtain ⟨budget', rfl⟩ : ∃ n, budget' = n + 1 := ⟨budget' - 1, by omega⟩
      simp only [expandWithin, chooseBody_alike halike]
      refine Report.SameUnless.rfl.bind fun _ _ => Report.SameUnless.rfl.bind fun chosen _ => ?_
      refine Report.SameUnless.bind (.mapError ?_) fun _ _ => .rfl
      exact renderWith_sameUnless halike fun _ _ m _ args => ih (Nat.le_of_succ_le_succ hle) m args _

theorem budget_le (hle : ev.maxDepth ≤ ev'.maxDepth) (ctx : Context) :
    ev.budget ctx ≤ ev'.budget ctx :=
  Nat.sub_le_sub_right hle ctx.depth

theorem evaluate_deeper (halike : ev.Alike ev') (hle : ev.maxDepth ≤ ev'.maxDepth) (ctx : Context)
    (e : Expr) :
    (ev.evaluate ctx e).SameUnless Failure.IsCyclic (ev'.evaluate ctx e) :=
  evaluateWith_sameUnless halike
    (fun _ _ m _ args => expandWithin_deeper halike (budget_le hle ctx) m args ctx) e
    (List.Subset.refl _)

theorem render_deeper (halike : ev.Alike ev') (hle : ev.maxDepth ≤ ev'.maxDepth) (ctx : Context)
    (t : Template) :
    (ev.render ctx t).SameUnless (fun f => f.failure.IsCyclic) (ev'.render ctx t) :=
  renderWith_sameUnless halike
    fun _ _ m _ args => expandWithin_deeper halike (budget_le hle ctx) m args ctx

end Evaluator

end Variorum
