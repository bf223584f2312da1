import Variorum.Proofs.Evaluation.Agreement
import Variorum.Proofs.Evaluation.Sameness

/-!
# Nested renderings

A macro that is named or called renders one of its bodies in a context of its own, where further macros
may be named or called. An evaluation takes the renderings that are nested in it and nothing else, and
since each of them is one call deeper and no call is deeper than the bound, they come to an end.
-/

namespace Variorum

/-- How templates are rendered in contexts. -/
abbrev Rendering : Type :=
  Context → Template → Report RenderFailure String

namespace Evaluator

variable {ev : Evaluator} {ctx : Context} {m : Macro} {args : List Value}

/-- Expands a macro by rendering the body that the call is prepared with, however deep that nests. -/
def expandBy (ev : Evaluator) (render : Rendering) : Expansion := fun m args ctx => do
  let call ← ev.prepare m args ctx
  let text ← (render (ctx.child m.name call.arguments) call.body).mapError (·.failure)
  return .text text

/-- The evaluation of expressions with these nodes may render this body in this context. -/
inductive Nests (ev : Evaluator) (ctx : Context) (nodes : List Expr) : Context × Template → Prop
  | expansion {name : String} {m : Macro} {args : List Value} {call : PreparedCall}
      (hrefers : Refers nodes name) (hdefined : ctx.symbols.macro? name = some m)
      (hcall : (ev.prepare m args ctx).result = .ok call) :
      Nests ev ctx nodes (ctx.child m.name call.arguments, call.body)

/-- A rendering is nested in the evaluation of expressions with these nodes, at any depth. -/
inductive Reaches (ev : Evaluator) (ctx : Context) (nodes : List Expr) : Context × Template → Prop
  | first {inner : Context × Template} (h : ev.Nests ctx nodes inner) : Reaches ev ctx nodes inner
  | next {outer inner : Context × Template} (houter : Reaches ev ctx nodes outer)
      (h : ev.Nests outer.1 outer.2.nodes inner) : Reaches ev ctx nodes inner

/-! ## Depth -/

theorem budget_child {callee : String} {arguments : List (String × Value)} :
    ev.budget (ctx.child callee arguments) = ev.budget ctx - 1 := by
  simp only [budget, Context.depth, Context.child, List.length_cons]
  omega

theorem depth_lt_of_prepare {call : PreparedCall}
    (h : (ev.prepare m args ctx).result = .ok call) : ctx.depth < ev.maxDepth := by
  simp only [prepare, Report.result_bind] at h
  obtain ⟨_, -, h⟩ := Except.bind_eq_ok.1 h
  split at h
  · cases h
  · exact Nat.lt_of_not_le ‹_›

theorem Nests.depth {nodes : List Expr} {inner : Context × Template}
    (h : ev.Nests ctx nodes inner) :
    inner.1.depth = ctx.depth + 1 ∧ inner.1.depth ≤ ev.maxDepth := by
  cases h with
  | expansion _ _ hcall => exact ⟨rfl, depth_lt_of_prepare hcall⟩

theorem Reaches.depth_le {nodes : List Expr} {inner : Context × Template}
    (h : ev.Reaches ctx nodes inner) : inner.1.depth ≤ ev.maxDepth := by
  cases h with
  | first h => exact h.depth.2
  | next _ h => exact h.depth.2

/-- Renderings do not nest without end: with each of them the bound comes nearer. -/
theorem nests_wellFounded (ev : Evaluator) :
    WellFounded fun inner outer : Context × Template => ev.Nests outer.1 outer.2.nodes inner := by
  refine Subrelation.wf (fun {inner outer} h => ?_)
    (measure fun c : Context × Template => ev.maxDepth - c.1.depth).wf
  have hdepth := h.depth
  show ev.maxDepth - inner.1.depth < ev.maxDepth - outer.1.depth
  omega

/-! ## What an evaluation takes -/

/-- The budget is spent exactly where a call cannot be prepared any more. -/
theorem expandWithin_budget :
    ev.expandWithin (ev.budget ctx) m args ctx = ev.expandBy ev.render m args ctx := by
  simp only [expandBy, prepare, bind_assoc]
  cases hbudget : ev.budget ctx with
  | zero =>
      have hdepth : ev.maxDepth ≤ ctx.depth := Nat.le_of_sub_eq_zero hbudget
      simp only [expandWithin, if_pos hdepth]
      rfl
  | succ n =>
      have hdepth : ¬ev.maxDepth ≤ ctx.depth := fun h => by
        rw [budget, Nat.sub_eq_zero_of_le h] at hbudget
        cases hbudget
      simp only [expandWithin, if_neg hdepth, bind_assoc, pure_bind, render, budget_child, hbudget,
        Nat.add_sub_cancel]

/-- An expansion by another rendering is the same if the other rendering is, of the bodies that are
nested. -/
theorem expandBy_congr {render render' : Rendering} {nodes : List Expr}
    (h : ∀ inner, ev.Nests ctx nodes inner → render inner.1 inner.2 = render' inner.1 inner.2) :
    ExpandsSameUnless (fun _ => False) (ev.expandBy render) (ev.expandBy render') ctx nodes := by
  intro name hname m hm args
  refine Report.SameUnless.rfl.bind fun call hcall => ?_
  rw [h _ (.expansion hname hm hcall)]
  exact .rfl

/-- The expansions within the budget are those by renderings. -/
theorem expandWithin_sameUnless {nodes : List Expr} :
    ExpandsSameUnless (fun _ => False) (ev.expandWithin (ev.budget ctx)) (ev.expandBy ev.render) ctx
      nodes := by
  intro _ _ m _ args
  rw [expandWithin_budget]
  exact .rfl

/-- An evaluation takes the renderings nested in it, whatever is rendered elsewhere. -/
theorem evaluate_eq {e : Expr} {render : Rendering}
    (h : ∀ inner, ev.Nests ctx e.nodes inner → ev.render inner.1 inner.2 = render inner.1 inner.2) :
    ev.evaluate ctx e = ev.evaluateWith (ev.expandBy render) ctx e :=
  calc ev.evaluate ctx e
    _ = ev.evaluateWith (ev.expandBy ev.render) ctx e :=
        (evaluateWith_sameUnless .rfl expandWithin_sameUnless e (List.Subset.refl _)).eq
    _ = ev.evaluateWith (ev.expandBy render) ctx e :=
        (evaluateWith_sameUnless .rfl (expandBy_congr h) e (List.Subset.refl _)).eq

theorem render_eq {t : Template} {render : Rendering}
    (h : ∀ inner, ev.Nests ctx t.nodes inner → ev.render inner.1 inner.2 = render inner.1 inner.2) :
    ev.render ctx t = ev.renderWith (ev.expandBy render) ctx t :=
  calc ev.render ctx t
    _ = ev.renderWith (ev.expandBy ev.render) ctx t :=
        (renderWith_sameUnless .rfl expandWithin_sameUnless).eq
    _ = ev.renderWith (ev.expandBy render) ctx t :=
        (renderWith_sameUnless .rfl (expandBy_congr h)).eq

/-- Whatever follows the rule of rendering in the renderings that are reached gives the same there: how
templates are rendered elsewhere, in deeper contexts say, is of no account. -/
theorem Reaches.render_unique {nodes : List Expr} {render : Rendering}
    (hrule : ∀ inner, ev.Reaches ctx nodes inner →
      render inner.1 inner.2 = ev.renderWith (ev.expandBy render) inner.1 inner.2)
    {inner : Context × Template} (h : ev.Reaches ctx nodes inner) :
    ev.render inner.1 inner.2 = render inner.1 inner.2 := by
  induction inner using ev.nests_wellFounded.induction with
  | _ outer ih =>
      rw [hrule outer h]
      exact render_eq fun inner hinner => ih inner hinner (h.next hinner)

end Evaluator

end Variorum
