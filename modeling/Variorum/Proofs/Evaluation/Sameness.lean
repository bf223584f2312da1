import Variorum.Evaluation.Evaluator
import Variorum.Proofs.Except

/-!
# What an evaluation takes from expansions

An evaluation uses the expansions of the macros that its expressions name or call, and no others. Where
these expansions are the same, so is the evaluation; where they are the same unless one of them fails in
some way, the evaluation is the same unless it fails in that way.
-/

namespace Variorum

/-- One of the expressions names or calls `name`. -/
def Refers (nodes : List Expr) (name : String) : Prop :=
  ∃ line, .name line name ∈ nodes ∨ ∃ args, .call line name args ∈ nodes

namespace Report

variable {ε ε' α β : Type} {C : ε → Prop} {r s : Report ε α}

/-- The reports are the same, unless the first one fails in a given way. -/
def SameUnless (C : ε → Prop) (r s : Report ε α) : Prop :=
  (r.result.FailsOnly fun e => ¬C e) → r = s

theorem SameUnless.rfl : r.SameUnless C r :=
  fun _ => Eq.refl r

theorem SameUnless.eq (h : r.SameUnless (fun _ => False) s) : r = s :=
  h fun _ _ => id

theorem SameUnless.bind {f g : α → Report ε β} (hr : r.SameUnless C s)
    (hf : ∀ a, r.result = .ok a → (f a).SameUnless C (g a)) :
    (r >>= f).SameUnless C (s >>= g) := by
  intro h
  rw [result_bind] at h
  have hrs : r = s := hr fun e he => h e (by rw [he, Except.error_bind])
  subst hrs
  obtain ⟨log, e | a⟩ := r
  · exact Eq.refl _
  · have hfg : f a = g a := hf a (Eq.refl _) h
    show andThen _ f = andThen _ g
    simp only [andThen, hfg]

theorem SameUnless.mapError {C : ε' → Prop} {f : ε → ε'}
    (h : r.SameUnless (fun e => C (f e)) s) : (r.mapError f).SameUnless C (s.mapError f) := by
  intro hfails
  have hrs : r = s := h fun e he => hfails (f e) (by rw [result_mapError, he]; exact Eq.refl _)
  rw [hrs]

end Report

namespace Evaluator

/-- Two evaluators that differ in how deep macro calls may nest, if at all. -/
structure Alike (ev ev' : Evaluator) : Prop where
  functions : ev.functions = ev'.functions
  subject : ev.subject = ev'.subject

theorem Alike.rfl {ev : Evaluator} : ev.Alike ev :=
  ⟨Eq.refl _, Eq.refl _⟩

variable {ev ev' : Evaluator} {expand expand' : Expansion} {ctx : Context} {nodes : List Expr}
  {C : Failure → Prop}

/-- The macros that the expressions refer to expand to the same, unless in a given failure. -/
def ExpandsSameUnless (C : Failure → Prop) (expand expand' : Expansion) (ctx : Context)
    (nodes : List Expr) : Prop :=
  ∀ name, Refers nodes name → ∀ m, ctx.symbols.macro? name = some m →
    ∀ args, (expand m args ctx).SameUnless C (expand' m args ctx)

theorem evaluateSlice_alike (halike : ev.Alike ev') {s : SliceRef} {source : Expr} :
    ev.evaluateSlice ctx s source = ev'.evaluateSlice ctx s source := by
  unfold evaluateSlice warnUnselected
  rw [halike.subject]

theorem evaluateName_sameUnless (halike : ev.Alike ev')
    (hexpand : ExpandsSameUnless C expand expand' ctx nodes) {line : Nat} {name : String}
    (hname : .name line name ∈ nodes) {source : Expr} :
    (ev.evaluateName expand ctx name source).SameUnless C
      (ev'.evaluateName expand' ctx name source) := by
  unfold evaluateName warnUnselected
  rw [halike.subject]
  split
  · exact .rfl
  · split
    · exact .rfl
    · split
      · rename_i m hm
        exact hexpand name ⟨line, .inl hname⟩ m hm []
      · exact .rfl

theorem evaluateCall_sameUnless (halike : ev.Alike ev')
    (hexpand : ExpandsSameUnless C expand expand' ctx nodes) {callee : String}
    (hcallee : Refers nodes callee) {args : List Value} :
    (ev.evaluateCall expand ctx callee args).SameUnless C
      (ev'.evaluateCall expand' ctx callee args) := by
  unfold evaluateCall
  rw [halike.functions]
  split
  · rename_i m hm
    exact hexpand callee hcallee m hm args
  · exact .rfl

mutual

theorem evaluateWith_sameUnless (halike : ev.Alike ev')
    (hexpand : ExpandsSameUnless C expand expand' ctx nodes) :
    (e : Expr) → e.nodes ⊆ nodes →
      (ev.evaluateWith expand ctx e).SameUnless C (ev'.evaluateWith expand' ctx e)
  | .literal _ _, _ => by
      simp only [evaluateWith]
      exact .rfl
  | .name _ _, hsub => by
      simp only [evaluateWith]
      exact evaluateName_sameUnless halike hexpand (List.cons_subset.1 hsub).1
  | .binary _ _ left right, hsub => by
      obtain ⟨hleft, hright⟩ := List.append_subset.1 (List.cons_subset.1 hsub).2
      simp only [evaluateWith]
      exact (evaluateWith_sameUnless halike hexpand left hleft).bind fun _ _ =>
        (evaluateWith_sameUnless halike hexpand right hright).bind fun _ _ => .rfl
  | .negation _ operand, hsub => by
      simp only [evaluateWith]
      exact (evaluateWith_sameUnless halike hexpand operand (List.cons_subset.1 hsub).2).bind
        fun _ _ => .rfl
  | .cast _ _ operand, hsub => by
      simp only [evaluateWith]
      exact (evaluateWith_sameUnless halike hexpand operand (List.cons_subset.1 hsub).2).bind
        fun _ _ => .rfl
  | .call line callee args, hsub => by
      obtain ⟨hcall, hargs⟩ := List.cons_subset.1 hsub
      simp only [evaluateWith]
      exact (evaluateAll_sameUnless halike hexpand args hargs).bind fun _ _ =>
        evaluateCall_sameUnless halike hexpand ⟨line, .inr ⟨args, hcall⟩⟩
  | .qualifiedCall _ _ _ args, hsub => by
      simp only [evaluateWith, halike.functions]
      exact (evaluateAll_sameUnless halike hexpand args (List.cons_subset.1 hsub).2).bind
        fun _ _ => .rfl
  | .slice _ _, _ => by
      simp only [evaluateWith, evaluateSlice_alike halike]
      exact .rfl
  | .invalid _, _ => by
      simp only [evaluateWith]
      exact .rfl

theorem evaluateAll_sameUnless (halike : ev.Alike ev')
    (hexpand : ExpandsSameUnless C expand expand' ctx nodes) :
    (es : List Expr) → Expr.nodesOfAll es ⊆ nodes →
      (ev.evaluateAll expand ctx es).SameUnless C (ev'.evaluateAll expand' ctx es)
  | [], _ => by
      simp only [evaluateAll]
      exact .rfl
  | e :: es, hsub => by
      obtain ⟨he, hes⟩ := List.append_subset.1 hsub
      simp only [evaluateAll]
      exact (evaluateWith_sameUnless halike hexpand e he).bind fun _ _ =>
        (evaluateAll_sameUnless halike hexpand es hes).bind fun _ _ => .rfl

end

theorem displayAll_sameUnless (halike : ev.Alike ev')
    (hexpand : ExpandsSameUnless C expand expand' ctx nodes)
    {pairs : List (EmbeddedSource × Expr)} (hsub : ∀ p ∈ pairs, p.2.nodes ⊆ nodes) :
    (ev.displayAll expand ctx pairs).SameUnless (fun f => C f.failure)
      (ev'.displayAll expand' ctx pairs) := by
  induction pairs with
  | nil => exact .rfl
  | cons p pairs ih =>
      obtain ⟨hp, hpairs⟩ := List.forall_mem_cons.1 hsub
      simp only [displayAll]
      have hvalue := (evaluateWith_sameUnless halike hexpand p.2 hp).mapError
        (C := fun f : RenderFailure => C f.failure) (f := (⟨·, p.1.text, p.2.line⟩))
      exact hvalue.bind fun _ _ => (ih hpairs).bind fun _ _ => .rfl

theorem renderWith_sameUnless (halike : ev.Alike ev') {t : Template}
    (hexpand : ExpandsSameUnless C expand expand' ctx t.nodes) :
    (ev.renderWith expand ctx t).SameUnless (fun f => C f.failure)
      (ev'.renderWith expand' ctx t) := by
  refine (displayAll_sameUnless halike hexpand fun p hp => ?_).bind fun _ _ => .rfl
  exact fun e he => List.mem_flatMap.2 ⟨p.2, (List.of_mem_zip hp).2, he⟩

end Evaluator

end Variorum
