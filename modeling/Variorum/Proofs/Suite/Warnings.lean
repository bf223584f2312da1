import Variorum.Proofs.Registry.Calls
import Variorum.Proofs.Suite.Coverage

/-!
# Warnings

A warning about a subject's own templates means that nothing comes of the subject. The node it is about
has no value in any context, and a subject is rendered only where each of its nodes has a value.
-/

namespace Variorum

/-! ## Nodes that are warned about -/

/-- The node refers to a symbol that is not there, or calls a macro with the wrong number of
arguments. -/
inductive Expr.Dangling (functions : Registry) (symbols : SymbolTable) : Expr → Prop
  | name {line x} : symbols.declares x = false → Dangling functions symbols (.name line x)
  | arity {line callee args m} : symbols.macro? callee = some m →
      args.length ≠ m.signature.args.length → Dangling functions symbols (.call line callee args)
  | call {line callee args} : symbols.macro? callee = none → functions.global? callee = none →
      Dangling functions symbols (.call line callee args)
  | qualifiedCall {line moduleName callee args} : functions.qualified? moduleName callee = none →
      Dangling functions symbols (.qualifiedCall line moduleName callee args)
  | slice {line r} : symbols.parameter? r.parameter = none →
      Dangling functions symbols (.slice line r)

theorem Expr.isSome_warning? {functions : Registry} {symbols : SymbolTable} {e : Expr} :
    (e.warning? functions symbols false).isSome ↔ e.Dangling functions symbols := by
  constructor
  · intro h
    cases e with
    | name line x =>
        cases hx : symbols.declares x with
        | false => exact .name hx
        | true => simp [warning?, hx] at h
    | call line callee args =>
        cases hm : symbols.macro? callee with
        | some m =>
            refine .arity hm fun hlength => ?_
            simp [warning?, callWarning?, hm, hlength] at h
        | none =>
            cases hf : functions.global? callee with
            | none => exact .call hm hf
            | some f => simp [warning?, callWarning?, hm, hf] at h
    | qualifiedCall line moduleName callee args =>
        cases hf : functions.qualified? moduleName callee with
        | none => exact .qualifiedCall hf
        | some f =>
            obtain ⟨entries, hmodule, -⟩ := Option.bind_eq_some_iff.1 hf
            simp [warning?, qualifiedWarning?, Registry.hasModule, hmodule, hf] at h
    | slice line r =>
        cases hp : symbols.parameter? r.parameter with
        | none => exact .slice hp
        | some p => simp [warning?, hp] at h
    | _ => cases h
  · intro h
    cases h with
    | name hx => simp [warning?, hx]
    | arity hm hlength => simp [warning?, callWarning?, hm, Ne.symm hlength]
    | call hm hf => simp [warning?, callWarning?, hm, hf]
    | qualifiedCall hf =>
        rw [warning?, Option.isSome_map, qualifiedWarning?, hf]
        split <;> rfl
    | slice hp => simp [warning?, hp]

/-! ## Nodes without a value -/

namespace Evaluator

variable {ev : Evaluator} {ctx : Context}

theorem length_of_expandWithin {budget : Nat} {m : Macro} {args : List Value}
    (h : (ev.expandWithin budget m args ctx).Succeeds) : args.length = m.signature.args.length := by
  cases budget with
  | zero =>
      obtain ⟨_, harity, -⟩ := h.of_bind
      exact checkArity_eq_ok.1 harity
  | succ budget =>
      obtain ⟨_, harity, -⟩ := h.of_bind
      exact checkArity_eq_ok.1 harity

/-- A dangling node has no value in a context that binds no other name than those of parameters. -/
theorem not_succeeds_of_dangling {e : Expr} (hdangling : e.Dangling ev.functions ctx.symbols)
    (hlookup : ∀ name, ctx.symbols.parameter? name = none → ctx.lookup? name = none)
    (hslice : ∀ r, e.slice? = some r → ∃ values, r.candidates ctx.symbols = .ok values) :
    ¬(ev.evaluate ctx e).Succeeds := by
  intro h
  unfold evaluate at h
  cases hdangling with
  | name hx =>
      obtain ⟨hp, hm⟩ := Bool.or_eq_false_iff.1 hx
      rw [Option.isSome_eq_false_iff, Option.isNone_iff_eq_none] at hp hm
      rw [evaluateWith, evaluateName, hlookup _ hp, hp, hm] at h
      obtain ⟨v, hv⟩ := h
      cases hv
  | arity hm hlength =>
      rw [evaluateWith] at h
      obtain ⟨values, hvalues, h⟩ := h.of_bind
      rw [evaluateCall, hm] at h
      exact hlength ((length_of_evaluateAll hvalues).symm.trans (length_of_expandWithin h))
  | call hm hf =>
      rw [evaluateWith] at h
      obtain ⟨values, -, h⟩ := h.of_bind
      rw [evaluateCall, hm, Registry.call, hf] at h
      obtain ⟨v, hv⟩ := h
      cases hv
  | qualifiedCall hf =>
      rw [evaluateWith] at h
      obtain ⟨values, -, v, hv⟩ := h.of_bind
      have hsome := Registry.isSome_qualified? hv
      rw [hf] at hsome
      cases hsome
  | slice hp =>
      obtain ⟨values, hvalues⟩ := hslice _ rfl
      rw [SliceRef.candidates, hp] at hvalues
      cases hvalues

end Evaluator

/-! ## Subjects -/

namespace Subject

variable {s : Subject} {functions : Registry} {config : Config}

/-- Where a subject is rendered, each of its nodes has a value. -/
theorem succeeds_of_render {ev : Evaluator} {ctx : Context} {r : ResolvedSubject}
    (h : (s.render config ev ctx).result = .ok r) {e : Expr} (he : e ∈ s.nodes) :
    (ev.evaluate ctx e).Succeeds := by
  obtain ⟨t, ht, he⟩ := List.mem_flatMap.1 he
  obtain ⟨tree, htree, he⟩ := List.mem_flatMap.1 he
  rw [← t.map_zip_sources] at htree
  obtain ⟨p, hp, rfl⟩ := List.mem_map.1 htree
  have hnone := Except.error?_eq_none_iff.2 ⟨r, h⟩
  rw [error?_render, List.findSome?_eq_none_iff] at hnone
  have hvalue := hnone p (List.mem_flatMap.2 ⟨t, ht, hp⟩)
  rw [Evaluator.failure?, Option.map_eq_none_iff, Except.error?_eq_none_iff] at hvalue
  exact Evaluator.evaluateWith_parts p.2 hvalue e he

theorem rendered_of_dangling {e : Expr} (he : e ∈ s.nodes)
    (hdangling : e.Dangling functions s.symbols) : (s.resolve functions config).rendered = [] := by
  refine List.eq_nil_iff_forall_not_mem.2 fun r hr => ?_
  obtain ⟨space, hspace, indices, -, hrender⟩ := mem_rendered.1 hr
  have hsymbols := contextAt_symbols hspace indices
  refine Evaluator.not_succeeds_of_dangling ?_ ?_ ?_ (succeeds_of_render hrender he)
  · exact hsymbols.symm ▸ hdangling
  · exact fun name hname => lookup?_of_undeclared hspace (hsymbols ▸ hname)
  · exact fun r hr => hsymbols.symm ▸
      exists_space.1 ⟨space, hspace⟩ e (List.mem_append_left _ he) r hr

end Subject

/-! ## Suites -/

namespace Suite

theorem log_compileSubjects {functions : Registry} {shared : SymbolTable}
    {ds : List SubjectDefinition} {subjects : List Subject}
    (h : (compileSubjects functions shared ds).result = .ok subjects) :
    (compileSubjects functions shared ds).log = subjects.flatMap (·.warnings functions) := by
  induction ds generalizing subjects with
  | nil =>
      cases h
      rfl
  | cons d ds ih =>
      rw [compileSubjects, Report.result_bind] at h
      obtain ⟨s, hs, h⟩ := Except.bind_eq_ok.1 h
      rw [Report.result_bind] at h
      obtain ⟨rest, hrest, h⟩ := Except.bind_eq_ok.1 h
      cases h
      have hlog : (Subject.compileWithWarnings functions shared d).log = s.warnings functions := by
        unfold Subject.compileWithWarnings at hs ⊢
        split at hs
        · cases hs
          rfl
        · cases hs
      rw [compileSubjects, Report.log_bind, hs, hlog, List.flatMap_cons, ← ih hrest]
      dsimp only
      rw [Report.log_bind, hrest]
      exact congrArg _ (List.append_nil _)

/-- What is recorded while a suite is compiled are the warnings of its subjects. -/
theorem log_compile {functions : Registry} {d : SuiteDefinition} {suite : Suite}
    (h : (compile functions d).result = .ok suite) :
    (compile functions d).log = suite.subjects.flatMap (·.warnings functions) := by
  rw [compile, Report.result_bind] at h
  obtain ⟨shared, hshared, h⟩ := Except.bind_eq_ok.1 h
  rw [Report.result_bind] at h
  obtain ⟨subjects, hsubjects, h⟩ := Except.bind_eq_ok.1 h
  cases h
  rw [compile, Report.log_bind, hshared]
  dsimp only
  rw [Report.log_bind, hsubjects, log_compileSubjects hsubjects]
  exact List.append_nil _

/-- The compilation of a suite records the warnings of its subjects, and a subject with a warning about
its own templates comes to nothing, however it is resolved with the functions it was compiled for. -/
theorem warned_unrendered {functions : Registry} {d : SuiteDefinition} {suite : Suite}
    (hsuite : (compile functions d).result = .ok suite) :
    (compile functions d).log = suite.subjects.flatMap (·.warnings functions) ∧
      ∀ s ∈ suite.subjects, ∀ e ∈ s.nodes, ∀ w, s.nodeWarning? functions false e = some w →
        w ∈ (compile functions d).log ∧
          ∀ config : Config, (s.resolve functions config).rendered = [] := by
  refine ⟨log_compile hsuite, fun s hs e he w hw => ⟨?_, fun config => ?_⟩⟩
  · rw [log_compile hsuite]
    exact List.mem_flatMap.2 ⟨s, hs, List.mem_append_left _ (List.mem_filterMap.2 ⟨e, he, hw⟩)⟩
  · obtain ⟨warning, hwarning, -⟩ := Option.map_eq_some_iff.1 hw
    exact Subject.rendered_of_dangling he (Expr.isSome_warning?.1 (hwarning ▸ rfl))

/-- A suite whose subject calls the macro `pair` with one argument, within the argument of a function
that is there. -/
def warnedSuite : SuiteDefinition where
  id := "suite"
  parameters := [⟨"x", [.integer 1]⟩]
  macros := [⟨"pair(a, b)", ["$\x7ba\x7d$\x7bb\x7d"]⟩]
  subjects := [{ id := "subject", name := "$\x7bx\x7d", code := "$\x7bupper(pair(x))\x7d" }]

theorem warned_unrendered_warnedSuite : ∃ suite s e w,
    (compile Library.standard warnedSuite).result = .ok suite ∧ s ∈ suite.subjects ∧ e ∈ s.nodes ∧
      s.nodeWarning? Library.standard false e = some w ∧ w.origin.source = some "pair(x)" ∧
      w.message = "pair(a, b) called with 1 arguments" ∧
      w ∈ (compile Library.standard warnedSuite).log ∧
      ∀ config : Config, (s.resolve Library.standard config).rendered = [] := by
  have hrun : ((compile Library.standard warnedSuite).result.toOption.bind
      (·.subjects.head?)).bind (fun s =>
        (s.nodes.filterMap (s.nodeWarning? Library.standard false)).head?.map fun w =>
          (w.origin.source, w.message)) =
      some (some "pair(x)", "pair(a, b) called with 1 arguments") := by
    decide +kernel
  simp only [Option.bind_eq_some_iff, Option.map_eq_some_iff, Except.toOption_eq_some,
    Prod.mk.injEq] at hrun
  obtain ⟨s, ⟨suite, hsuite, hhead⟩, w, hw, hsource, hmessage⟩ := hrun
  have hs : s ∈ suite.subjects := List.mem_of_head? hhead
  obtain ⟨e, he, hw⟩ := List.mem_filterMap.1 (List.mem_of_head? hw)
  obtain ⟨hlog, hrendered⟩ := (warned_unrendered hsuite).2 s hs e he w hw
  exact ⟨suite, s, e, w, hsuite, hs, he, hw, hsource, hmessage, hlog, hrendered⟩

end Suite

end Variorum
