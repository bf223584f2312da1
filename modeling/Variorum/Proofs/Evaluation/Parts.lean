import Variorum.Proofs.Library.Refusals
import Variorum.Proofs.Template.Reading
import Variorum.Suite.Resolution

/-!
# An evaluation and its parts

An evaluation composes what the names, calls and slices in an expression come to. A property that
composition keeps therefore holds of the evaluation if it holds of these, and an evaluation succeeds only
if each of its parts does.
-/

namespace Variorum

namespace Report

/-- A property of reports that composition keeps. -/
structure Compositional {ε : Type} (P : {α : Type} → Report ε α → Prop) : Prop where
  done : ∀ {α : Type} (a : α), P (done a)
  bind : ∀ {α β : Type} {r : Report ε α} {f : α → Report ε β}, P r →
    (∀ a, r.result = .ok a → P (f a)) → P (r >>= f)

section

variable {ε α β : Type} {P : {α : Type} → Report ε α → Prop} {f : α → Report ε β}

theorem Compositional.mapM (hP : Compositional P) {as : List α} (h : ∀ a ∈ as, P (f a)) :
    P (as.mapM f) := by
  induction as with
  | nil => exact hP.done []
  | cons a as ih =>
      obtain ⟨ha, has⟩ := List.forall_mem_cons.1 h
      rw [List.mapM_cons]
      exact hP.bind ha fun _ _ => hP.bind (ih has) fun _ _ => hP.done _

theorem Compositional.mapM_option (hP : Compositional P) {o : Option α} (h : ∀ a ∈ o, P (f a)) :
    P (o.mapM f) := by
  cases o with
  | none => exact hP.done none
  | some a => exact hP.bind (h a rfl) fun _ _ => hP.done _

theorem compositional_failsOnly {Q : ε → Prop} :
    Compositional fun r : Report ε _ => r.result.FailsOnly Q where
  done _ := Except.failsOnly_ok
  bind hr hf := by
    rw [result_bind]
    exact hr.bind hf

end

variable {ε ε' ε'' α β : Type}

theorem mapError_bind (f : ε → ε') (r : Report ε α) (g : α → Report ε β) :
    (r >>= g).mapError f = r.mapError f >>= fun a => (g a).mapError f := by
  obtain ⟨log, e | a⟩ := r <;> rfl

theorem mapError_mapError (f : ε → ε') (g : ε' → ε'') (r : Report ε α) :
    (r.mapError f).mapError g = r.mapError (g ∘ f) := by
  obtain ⟨log, e | a⟩ := r <;> rfl

theorem mapError_id (r : Report ε α) : r.mapError id = r := by
  obtain ⟨log, e | a⟩ := r <;> rfl

def Succeeds (r : Report ε α) : Prop :=
  ∃ a, r.result = .ok a

theorem Succeeds.of_bind {r : Report ε α} {f : α → Report ε β} (h : (r >>= f).Succeeds) :
    ∃ a, r.result = .ok a ∧ (f a).Succeeds := by
  obtain ⟨b, hb⟩ := h
  rw [result_bind] at hb
  obtain ⟨a, ha, hb⟩ := Except.bind_eq_ok.1 hb
  exact ⟨a, ha, b, hb⟩

end Report

namespace Evaluator

variable {P : {α : Type} → Report Failure α → Prop} {ev : Evaluator} {expand : Expansion}
  {ctx : Context} {nodes : List Expr}

/-- Whatever operators come to has a property, and so have the leaves and the calls among the nodes,
whatever the values of their arguments. -/
structure PartsHave (P : {α : Type} → Report Failure α → Prop) (ev : Evaluator) (expand : Expansion)
    (ctx : Context) (nodes : List Expr) : Prop where
  operation : ∀ r : Except Failure Value, r.FailsOnly Failure.OfArguments → P (.ofExcept r)
  name : ∀ line x, .name line x ∈ nodes → P (ev.evaluateName expand ctx x (.name line x))
  call : ∀ line callee args, .call line callee args ∈ nodes → ∀ values : List Value,
    values.length = args.length → P (ev.evaluateCall expand ctx callee values)
  qualifiedCall : ∀ line moduleName callee args, .qualifiedCall line moduleName callee args ∈ nodes →
    ∀ values, P (.ofExcept (ev.functions.callQualified moduleName callee values))
  slice : ∀ line s, .slice line s ∈ nodes → P (ev.evaluateSlice ctx s (.slice line s))
  invalid : ∀ error, .invalid error ∈ nodes → P (ev.evaluateWith expand ctx (.invalid error))

theorem length_of_evaluateAll {es : List Expr} {values : List Value}
    (h : (ev.evaluateAll expand ctx es).result = .ok values) : values.length = es.length := by
  induction es generalizing values with
  | nil =>
      rw [evaluateAll] at h
      cases h
      rfl
  | cons e es ih =>
      simp only [evaluateAll, Report.result_bind] at h
      obtain ⟨v, -, h⟩ := Except.bind_eq_ok.1 h
      obtain ⟨vs, hvs, h⟩ := Except.bind_eq_ok.1 h
      cases h
      rw [List.length_cons, List.length_cons, ih hvs]

mutual

theorem PartsHave.evaluateWith (hP : Report.Compositional P) (h : PartsHave P ev expand ctx nodes) :
    (e : Expr) → e.nodes ⊆ nodes → P (ev.evaluateWith expand ctx e)
  | .literal _ v, _ => by
      rw [Evaluator.evaluateWith]
      exact hP.done v
  | .name line x, hsub => by
      rw [Evaluator.evaluateWith]
      exact h.name line x (List.cons_subset.1 hsub).1
  | .binary _ _ left right, hsub => by
      obtain ⟨hleft, hright⟩ := List.append_subset.1 (List.cons_subset.1 hsub).2
      rw [Evaluator.evaluateWith]
      exact hP.bind (h.evaluateWith hP left hleft) fun _ _ =>
        hP.bind (h.evaluateWith hP right hright) fun _ _ => h.operation _ Value.binary_failsOnly
  | .negation _ operand, hsub => by
      rw [Evaluator.evaluateWith]
      exact hP.bind (h.evaluateWith hP operand (List.cons_subset.1 hsub).2) fun _ _ =>
        h.operation _ Value.negate_failsOnly
  | .cast _ _ operand, hsub => by
      rw [Evaluator.evaluateWith]
      exact hP.bind (h.evaluateWith hP operand (List.cons_subset.1 hsub).2) fun _ _ =>
        h.operation _ Value.castTo_failsOnly
  | .call line callee args, hsub => by
      obtain ⟨hcall, hargs⟩ := List.cons_subset.1 hsub
      rw [Evaluator.evaluateWith]
      exact hP.bind (h.evaluateAll hP args hargs) fun values hvalues =>
        h.call line callee args hcall values (length_of_evaluateAll hvalues)
  | .qualifiedCall line moduleName callee args, hsub => by
      obtain ⟨hcall, hargs⟩ := List.cons_subset.1 hsub
      rw [Evaluator.evaluateWith]
      exact hP.bind (h.evaluateAll hP args hargs) fun values _ =>
        h.qualifiedCall line moduleName callee args hcall values
  | .slice line s, hsub => by
      rw [Evaluator.evaluateWith]
      exact h.slice line s (List.cons_subset.1 hsub).1
  | .invalid error, hsub => h.invalid error (List.cons_subset.1 hsub).1

theorem PartsHave.evaluateAll (hP : Report.Compositional P) (h : PartsHave P ev expand ctx nodes) :
    (es : List Expr) → Expr.nodesOfAll es ⊆ nodes → P (ev.evaluateAll expand ctx es)
  | [], _ => by
      rw [Evaluator.evaluateAll]
      exact hP.done []
  | e :: es, hsub => by
      obtain ⟨he, hes⟩ := List.append_subset.1 hsub
      rw [Evaluator.evaluateAll]
      exact hP.bind (h.evaluateWith hP e he) fun _ _ =>
        hP.bind (h.evaluateAll hP es hes) fun _ _ => hP.done _

end

/-! ## Calls -/

theorem checkArity_failsOnly {m : Macro} {args : List Value} :
    (checkArity m args).FailsOnly Failure.OfArguments := by
  unfold checkArity
  split
  · exact Except.failsOnly_ok
  · exact Except.failsOnly_error trivial

theorem checkArity_eq_ok {m : Macro} {args : List Value} :
    checkArity m args = .ok () ↔ args.length = m.signature.args.length := by
  unfold checkArity
  split
  · exact iff_of_true rfl ‹_›
  · exact iff_of_false (fun h => nomatch h) ‹_›

/-! ## Success -/

mutual

/-- Where an expression has a value, all expressions in it have one. -/
theorem evaluateWith_parts : (e : Expr) → (ev.evaluateWith expand ctx e).Succeeds →
    ∀ x ∈ e.nodes, (ev.evaluateWith expand ctx x).Succeeds
  | .literal _ _, h => List.forall_mem_singleton.2 h
  | .name _ _, h => List.forall_mem_singleton.2 h
  | .slice _ _, h => List.forall_mem_singleton.2 h
  | .invalid _, h => List.forall_mem_singleton.2 h
  | .binary _ _ left right, h => by
      refine List.forall_mem_cons.2 ⟨h, ?_⟩
      rw [evaluateWith] at h
      obtain ⟨a, ha, h⟩ := h.of_bind
      obtain ⟨b, hb, -⟩ := h.of_bind
      exact List.forall_mem_append.2
        ⟨evaluateWith_parts left ⟨a, ha⟩, evaluateWith_parts right ⟨b, hb⟩⟩
  | .negation _ operand, h => by
      refine List.forall_mem_cons.2 ⟨h, ?_⟩
      rw [evaluateWith] at h
      obtain ⟨a, ha, -⟩ := h.of_bind
      exact evaluateWith_parts operand ⟨a, ha⟩
  | .cast _ _ operand, h => by
      refine List.forall_mem_cons.2 ⟨h, ?_⟩
      rw [evaluateWith] at h
      obtain ⟨a, ha, -⟩ := h.of_bind
      exact evaluateWith_parts operand ⟨a, ha⟩
  | .call _ _ args, h => by
      refine List.forall_mem_cons.2 ⟨h, ?_⟩
      rw [evaluateWith] at h
      obtain ⟨values, hvalues, -⟩ := h.of_bind
      exact evaluateAll_parts args ⟨values, hvalues⟩
  | .qualifiedCall _ _ _ args, h => by
      refine List.forall_mem_cons.2 ⟨h, ?_⟩
      rw [evaluateWith] at h
      obtain ⟨values, hvalues, -⟩ := h.of_bind
      exact evaluateAll_parts args ⟨values, hvalues⟩

theorem evaluateAll_parts : (es : List Expr) → (ev.evaluateAll expand ctx es).Succeeds →
    ∀ x ∈ Expr.nodesOfAll es, (ev.evaluateWith expand ctx x).Succeeds
  | [], _ => List.forall_mem_nil _
  | e :: es, h => by
      rw [evaluateAll] at h
      obtain ⟨v, hv, h⟩ := h.of_bind
      obtain ⟨vs, hvs, -⟩ := h.of_bind
      exact List.forall_mem_append.2 ⟨evaluateWith_parts e ⟨v, hv⟩, evaluateAll_parts es ⟨vs, hvs⟩⟩

end

/-! ## Renderings -/

theorem mapError_displayAll {pairs : List (EmbeddedSource × Expr)} :
    (ev.displayAll expand ctx pairs).mapError (·.failure) = do
      let values ← ev.evaluateAll expand ctx (pairs.map (·.2))
      return values.map Value.display := by
  induction pairs with
  | nil => rfl
  | cons p pairs ih =>
      have hvalue : ((ev.evaluateWith expand ctx p.2).mapError
          (⟨·, p.1.text, p.2.line⟩)).mapError RenderFailure.failure = ev.evaluateWith expand ctx p.2 :=
        (Report.mapError_mapError _ _ _).trans (Report.mapError_id _)
      rw [displayAll, List.map_cons, evaluateAll, Report.mapError_bind, hvalue]
      simp only [Report.mapError_bind, ih, bind_assoc, pure_bind]
      rfl

/-- But for the places of its failures, a rendering is the evaluation of all trees of the template. -/
theorem mapError_renderWith {t : Template} :
    (ev.renderWith expand ctx t).mapError (·.failure) = do
      let values ← ev.evaluateAll expand ctx t.exprs
      return t.fragment.render (values.map Value.display) := by
  rw [renderWith, Report.mapError_bind, mapError_displayAll, t.map_zip_sources, bind_assoc]
  simp only [pure_bind]
  rfl

theorem PartsHave.renderWith (hP : Report.Compositional P) {t : Template}
    (h : PartsHave P ev expand ctx t.nodes) :
    P ((ev.renderWith expand ctx t).mapError (·.failure)) := by
  rw [mapError_renderWith]
  exact hP.bind (h.evaluateAll hP t.exprs fun _ he => t.nodesOfAll_exprs ▸ he) fun _ _ => hP.done _

end Evaluator

/-- A property that composition keeps holds of the rendering of a subject if it holds of those of its
templates. -/
theorem Subject.render_of_templates {P : {α : Type} → Report RenderFailure α → Prop}
    (hP : Report.Compositional P) {s : Subject} {config : Config} {ev : Evaluator} {ctx : Context}
    (h : ∀ t ∈ s.templates, P (ev.render ctx t)) : P (s.render config ev ctx) := by
  have houtcome : ∀ o ∈ s.outcomes, P (o.render ev ctx) := by
    intro o ho
    have hmem : ∀ t ∈ o.templates, t ∈ s.templates := fun t ht =>
      List.mem_cons_of_mem _ (List.mem_cons_of_mem _ (List.mem_flatMap.2 ⟨o, ho, ht⟩))
    have hwarning : P (o.warning.mapM (ev.render ctx)) := hP.mapM_option fun t ht =>
      h t (hmem t (List.mem_append_left _ (Option.mem_toList.2 ht)))
    have herror : P (o.error.mapM (ev.render ctx)) := hP.mapM_option fun t ht =>
      h t (hmem t (List.mem_append_right _ (Option.mem_toList.2 ht)))
    exact hP.bind hwarning fun _ _ => hP.bind herror fun _ _ => hP.done _
  refine hP.bind (h s.name List.mem_cons_self) fun _ _ => ?_
  refine hP.bind (h s.code (List.mem_cons_of_mem _ List.mem_cons_self)) fun _ _ => ?_
  exact hP.bind (hP.mapM houtcome) fun _ _ => hP.done _

end Variorum
