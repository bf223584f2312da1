import Variorum.Proofs.Evaluation.Log
import Variorum.Proofs.Except
import Variorum.Proofs.Product.Odometer

/-!
# Resolution conserves instances

In every context of a subject either a rendering or one error comes out, and neither depends on what
comes out elsewhere.
-/

namespace Variorum

/-! ## The failure of a rendering -/

theorem findSome?_flatMap {α β γ : Type} {f : β → Option γ} {g : α → List β} {as : List α} :
    (as.flatMap g).findSome? f = as.findSome? fun a => (g a).findSome? f := by
  induction as with
  | nil => rfl
  | cons a as ih =>
      rw [List.flatMap_cons, List.findSome?_append, List.findSome?_cons, ih]
      cases (g a).findSome? f <;> rfl

namespace Evaluator

/-- The failure of an embedded expression. -/
def failure? (ev : Evaluator) (ctx : Context) (p : EmbeddedSource × Expr) : Option RenderFailure :=
  (ev.evaluate ctx p.2).result.error?.map (⟨·, p.1.text, p.2.line⟩)

variable {ev : Evaluator} {ctx : Context}

theorem error?_displayAll {pairs : List (EmbeddedSource × Expr)} :
    (ev.displayAll (ev.expandWithin (ev.budget ctx)) ctx pairs).result.error? =
      pairs.findSome? (ev.failure? ctx) := by
  induction pairs with
  | nil => rfl
  | cons p pairs ih =>
      obtain ⟨source, e⟩ := p
      simp only [displayAll, Report.result_bind, Report.result_mapError, Report.result_pure,
        List.findSome?_cons, failure?]
      rw [Except.error?_bind fun _ _ => Except.error?_bind_ok, ih]
      unfold evaluate
      cases (ev.evaluateWith (ev.expandWithin (ev.budget ctx)) ctx e).result <;> rfl

/-- A template fails as the first of its expressions that does. -/
theorem error?_render {t : Template} :
    (ev.render ctx t).result.error? =
      (t.fragment.sources.zip t.exprs).findSome? (ev.failure? ctx) := by
  simp only [render, renderWith, Report.result_bind]
  exact Except.error?_bind_ok.trans error?_displayAll

end Evaluator

namespace Subject

/-- The embedded expressions of a subject with their sources, in the order of their evaluation. -/
def embedded (s : Subject) : List (EmbeddedSource × Expr) :=
  s.templates.flatMap fun t => t.fragment.sources.zip t.exprs

/-- A subject fails as the first of its expressions that does, in whatever template it stands. -/
theorem error?_render {s : Subject} {config : Config} {ev : Evaluator} {ctx : Context} :
    (s.render config ev ctx).result.error? = s.embedded.findSome? (ev.failure? ctx) := by
  have houtcome : ∀ o : Outcome, (o.render ev ctx).result.error? =
      (o.templates.flatMap fun t => t.fragment.sources.zip t.exprs).findSome? (ev.failure? ctx) := by
    intro o
    have hoption : ∀ t? : Option Template, (t?.mapM (ev.render ctx)).result.error? =
        (t?.toList.flatMap fun t => t.fragment.sources.zip t.exprs).findSome? (ev.failure? ctx) := by
      intro t?
      cases t? with
      | none => rfl
      | some t =>
          rw [Report.result_mapM_option, Option.toList_some, List.flatMap_singleton,
            ← Evaluator.error?_render]
          exact Except.error?_bind_ok
    simp only [Outcome.render, Report.result_bind, Report.result_pure]
    rw [Except.error?_bind fun _ _ => Except.error?_bind_ok, hoption, hoption, Outcome.templates,
      List.flatMap_append, List.findSome?_append]
  simp only [render, Report.result_bind, Report.result_mapM, Report.result_pure]
  rw [Except.error?_bind fun _ _ => Except.error?_bind fun _ _ => Except.error?_bind_ok,
    Except.error?_mapM, Evaluator.error?_render, Evaluator.error?_render]
  simp only [houtcome, embedded, templates, List.flatMap_cons, List.flatMap_assoc,
    List.findSome?_append, findSome?_flatMap]

variable {s : Subject} {functions : Registry} {config : Config}

/-- Why a subject comes to nothing in a context: the first of its expressions that fails. -/
def failure? (s : Subject) (functions : Registry) (config : Config) (ctx : Context) :
    Option RenderFailure :=
  s.embedded.findSome? ((s.evaluator functions config).failure? ctx)

/-- What a subject comes to in a context. -/
def rendering? (s : Subject) (functions : Registry) (config : Config) (ctx : Context) :
    Option ResolvedSubject :=
  (s.render config (s.evaluator functions config) ctx).result.toOption

/-- The warnings of a rendering and, behind them, the error if it failed. -/
def recorded (s : Subject) (functions : Registry) (config : Config) (ctx : Context) :
    List Diagnostic :=
  (s.render config (s.evaluator functions config) ctx).log ++
    ((s.failure? functions config ctx).map (s.renderError ctx)).toList

/-- The successful renderings of a subject in the order of the odometer. -/
def successes (s : Subject) (functions : Registry) (config : Config) : List ResolvedSubject :=
  match s.space config.prune with
  | .error _ => []
  | .ok space =>
    (Odometer.tuples space.sizes).filterMap fun indices =>
      s.rendering? functions config (space.contextAt indices)

/-- The errors of a subject: one for each failing context, or one if there is no context space. -/
def errors (s : Subject) (functions : Registry) (config : Config) : List Diagnostic :=
  match s.space config.prune with
  | .error f => [.ofFailure f { subject := some s.id }]
  | .ok space =>
    (Odometer.tuples space.sizes).filterMap fun indices =>
      (s.failure? functions config (space.contextAt indices)).map fun f =>
        .ofFailure f.failure {
          subject := some s.id
          bindings := (space.contextAt indices).bindings
          source := some f.expression
          line := some f.line }

/-! ## One context -/

theorem failure?_eq (ctx : Context) : s.failure? functions config ctx =
    (s.render config (s.evaluator functions config) ctx).result.error? :=
  error?_render.symm

theorem attempt_eq (ctx : Context) :
    s.attempt config (s.evaluator functions config) ctx =
      { rendered := (s.rendering? functions config ctx).toList
        log := s.recorded functions config ctx } := by
  simp only [attempt, recorded, rendering?, failure?_eq]
  cases (s.render config (s.evaluator functions config) ctx).result with
  | error f => rfl
  | ok r => simp [Except.error?, Except.toOption]

theorem resolve_of_error {f : Failure} (h : s.space config.prune = .error f) :
    s.resolve functions config = { log := [.ofFailure f { subject := some s.id }] } := by
  simp only [resolve, h]

theorem resolve_of_space {space : ContextSpace} (h : s.space config.prune = .ok space) :
    s.resolve functions config = {
      rendered := (Odometer.tuples space.sizes).flatMap fun indices =>
        (s.rendering? functions config (space.contextAt indices)).toList
      log := (Odometer.tuples space.sizes).flatMap fun indices =>
        s.recorded functions config (space.contextAt indices) } := by
  simp only [resolve, h, ContextSpace.contexts, Odometer.all_eq_tuples, List.map_map,
    List.flatMap_map, Function.comp, attempt_eq]

theorem rendered_resolve : (s.resolve functions config).rendered = s.successes functions config := by
  unfold successes
  split
  · rename_i h
    rw [resolve_of_error h]
  · rename_i h
    rw [resolve_of_space h, List.filterMap_eq_flatMap_toList]

theorem mem_rendered {r : ResolvedSubject} : r ∈ (s.resolve functions config).rendered ↔
    ∃ space, s.space config.prune = .ok space ∧ ∃ indices,
      List.Forall₂ (· < ·) indices space.sizes ∧
        (s.render config (s.evaluator functions config) (space.contextAt indices)).result = .ok r := by
  rw [rendered_resolve, successes]
  split
  · rename_i h
    simp [h]
  · rename_i space h
    simp only [h, List.mem_filterMap, Odometer.mem_tuples, Except.ok.injEq, exists_eq_left']
    refine exists_congr fun indices => and_congr_right fun _ => ?_
    rw [rendering?]
    cases (s.render config (s.evaluator functions config) (space.contextAt indices)).result <;>
      simp [Except.toOption]

end Subject

/-! ## Suites -/

namespace ResolvedSuite

/-- Insertion one after the other keeps of equal renderings the first. -/
theorem foldl_insert (rs : List ResolvedSubject) (suite : ResolvedSuite) :
    rs.foldl insert suite = { suite with
      subjects := suite.subjects ++ (rs.filter fun r => !suite.subjects.contains r).eraseDups } := by
  induction rs generalizing suite with
  | nil => simp
  | cons r rs ih =>
      rw [List.foldl_cons, ih, insert, contains]
      split
      · rename_i hknown
        rw [List.filter_cons_of_neg (by simpa using hknown)]
      · rename_i hnew
        rw [List.filter_cons_of_pos (by simpa using hnew), List.eraseDups_cons, List.filter_filter]
        simp only [List.append_assoc, List.singleton_append]
        refine congrArg (fun rest => { suite with subjects := suite.subjects ++ r :: rest }) ?_
        refine congrArg List.eraseDups (List.filter_congr fun x _ => ?_)
        simp [Bool.and_comm, beq_eq_decide]

end ResolvedSuite

namespace Suite

variable {suite : Suite} {functions : Registry} {config : Config}

theorem resolve_fst : (suite.resolve functions config).1 = {
    name := suite.id
    configuration := suite.configuration
    subjects := (suite.subjects.flatMap (·.successes functions config)).eraseDups } := by
  have hrendered : (suite.resolveSubjects functions config).flatMap (·.rendered) =
      suite.subjects.flatMap (·.successes functions config) := by
    simp only [resolveSubjects, List.flatMap_map, Subject.rendered_resolve]
  simp [resolve, ResolvedSuite.foldl_insert, hrendered]

theorem mem_resolve {r : ResolvedSubject} : r ∈ (suite.resolve functions config).1.subjects ↔
    ∃ s ∈ suite.subjects, r ∈ (s.resolve functions config).rendered := by
  simp only [resolve_fst, List.mem_eraseDups, List.mem_flatMap, Subject.rendered_resolve]

end Suite

end Variorum
