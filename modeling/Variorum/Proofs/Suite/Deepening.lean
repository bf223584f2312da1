import Variorum.Proofs.Evaluation.Deepening
import Variorum.Proofs.Suite.Resolution

/-!
# Suites under deeper nesting

Where macro calls may nest deeper, a subject still comes to all that it came to before, in the same
contexts.
-/

namespace Variorum

namespace Subject

variable {s : Subject} {config : Config} {ev ev' : Evaluator} {ctx : Context}

theorem render_deeper (halike : ev.Alike ev') (hle : ev.maxDepth ≤ ev'.maxDepth) :
    (s.render config ev ctx).SameUnless (fun f => f.failure.IsCyclic) (s.render config ev' ctx) := by
  have htemplate := Evaluator.render_deeper halike hle ctx
  have houtcome : ∀ o : Outcome,
      (o.render ev ctx).SameUnless (fun f => f.failure.IsCyclic) (o.render ev' ctx) := fun o =>
    (Report.SameUnless.mapM_option htemplate o.warning).bind fun _ _ =>
      (Report.SameUnless.mapM_option htemplate o.error).bind fun _ _ => .rfl
  exact (htemplate s.name).bind fun _ _ => (htemplate s.code).bind fun _ _ =>
    (Report.SameUnless.mapM houtcome s.outcomes).bind fun _ _ => .rfl

/-- The contexts of a subject do not depend on how deep calls may nest, and a rendering in one of them
is there with every greater depth. -/
theorem rendered_deeper {functions : Registry} {depth depth' : Nat} (hle : depth ≤ depth') :
    (s.resolve functions { config with maxDepth := depth }).rendered ⊆
      (s.resolve functions { config with maxDepth := depth' }).rendered := by
  intro r hr
  obtain ⟨space, hspace, indices, hindices, hr⟩ := mem_rendered.1 hr
  refine mem_rendered.2 ⟨space, hspace, indices, hindices, ?_⟩
  have hsame : s.render config (s.evaluator functions { config with maxDepth := depth })
      (space.contextAt indices) = s.render config
        (s.evaluator functions { config with maxDepth := depth' }) (space.contextAt indices) :=
    render_deeper ⟨rfl, rfl⟩ hle fun f hf => nomatch hr.symm.trans hf
  exact (congrArg Report.result hsame).symm.trans hr

end Subject

namespace Suite

/-- With a greater bound on the depth of calls an expression comes to the same and records the same,
unless it failed for that depth, and so no rendering is lost from a resolved suite. -/
theorem deepening_keeps (functions : Registry) {depth depth' : Nat} (hle : depth ≤ depth') :
    (∀ (subject : Option String) (ctx : Context) (e : Expr),
      (∀ path limit, (Evaluator.evaluate ⟨functions, depth, subject⟩ ctx e).result ≠
        .error (.cyclicExpansion path limit)) →
      Evaluator.evaluate ⟨functions, depth', subject⟩ ctx e =
        Evaluator.evaluate ⟨functions, depth, subject⟩ ctx e) ∧
    ∀ (suite : Suite) (config : Config),
      (suite.resolve functions { config with maxDepth := depth }).1.subjects ⊆
        (suite.resolve functions { config with maxDepth := depth' }).1.subjects := by
  refine ⟨fun subject ctx e hcyclic => ?_, fun suite config r hr => ?_⟩
  · have halike : Evaluator.Alike ⟨functions, depth, subject⟩ ⟨functions, depth', subject⟩ := ⟨rfl, rfl⟩
    refine (Evaluator.evaluate_deeper halike hle ctx e fun f hf => ?_).symm
    cases f with
    | cyclicExpansion path limit => exact absurd hf (hcyclic path limit)
    | _ => exact not_false
  · obtain ⟨s, hs, hr⟩ := mem_resolve.1 hr
    exact mem_resolve.2 ⟨s, hs, Subject.rendered_deeper hle hr⟩

/-- A subject whose call of `outer` nests two deep. -/
def nestingSuite : SuiteDefinition where
  id := "suite"
  subjects := [{
    id := "subject"
    name := "name"
    code := "$\x7bouter\x7d"
    parameters := [⟨"x", [.integer 1, .integer 2]⟩]
    macros := [⟨"outer()", ["<$\x7binner(x)\x7d>"]⟩, ⟨"inner(a)", ["$\x7ba\x7d"]⟩] }]

theorem deepening_keeps_nestingSuite : ∃ suite s,
    (Suite.compile {} nestingSuite).result = .ok suite ∧ s ∈ suite.subjects ∧ 2 ≤ 3 ∧
      (Evaluator.evaluate ⟨{}, 2, none⟩ (.root s.symbols) (.name 1 "outer")).result =
        .ok (.text "<1>") ∧
      Evaluator.evaluate ⟨{}, 3, none⟩ (.root s.symbols) (.name 1 "outer") =
        Evaluator.evaluate ⟨{}, 2, none⟩ (.root s.symbols) (.name 1 "outer") ∧
      ⟨"name", "<2>", []⟩ ∈ (suite.resolve {} { maxDepth := 3 }).1.subjects := by
  have hrun : (Suite.compile {} nestingSuite).result.toOption.bind (fun suite =>
      suite.subjects.head?.map fun s =>
        ((Evaluator.evaluate ⟨{}, 2, none⟩ (.root s.symbols) (.name 1 "outer")).result.toOption.bind
          Value.asText?, (suite.resolve {} { maxDepth := 2 }).1.subjects)) =
      some (some "<1>", [⟨"name", "<1>", []⟩, ⟨"name", "<2>", []⟩]) := by
    decide +kernel
  simp only [Option.bind_eq_some_iff, Option.map_eq_some_iff, Except.toOption_eq_some,
    Prod.mk.injEq] at hrun
  obtain ⟨suite, hsuite, s, hhead, ⟨v, hv, htext⟩, hresolved⟩ := hrun
  obtain rfl : v = .text "<1>" := by
    cases v <;> cases htext
    rfl
  obtain ⟨hsame, hkept⟩ := deepening_keeps {} (show 2 ≤ 3 by decide)
  refine ⟨suite, s, hsuite, List.mem_of_head? hhead, by decide, hv, hsame none _ _ ?_, ?_⟩
  · intro path limit hfails
    cases hv.symm.trans hfails
  · refine hkept suite {} ?_
    rw [hresolved]
    decide

end Suite

end Variorum
