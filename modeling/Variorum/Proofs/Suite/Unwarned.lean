import Variorum.Proofs.Evaluation.Nesting
import Variorum.Proofs.Suite.Warnings

/-!
# Subjects without warnings

If nothing is warned about, the references in a subject's own templates find their symbols and calls of
macros have the right number of arguments. But the bare name of a macro stands for a call without
arguments, and whether the macro takes any is not looked at: such a name is not warned about and fails
in every context.
-/

namespace Variorum

/-- There is no such symbol, or it is called with the wrong number of arguments. -/
def Failure.OfReference : Failure → Prop
  | .unknownSymbol .. | .wrongArity .. => True
  | _ => False

/-- The arguments of a node, if it refers to a symbol. -/
def Expr.referenceArgs? : Expr → Option (List Expr)
  | .name .. | .slice .. => some []
  | .call _ _ args | .qualifiedCall _ _ _ args => some args
  | _ => none

theorem Context.declares_of_meaning_unknown {ctx : Context} {name : String}
    (h : ctx.meaning name = .unknown) : ctx.symbols.declares name = false := by
  unfold meaning at h
  split at h
  · cases h
  · split at h
    · split at h <;> cases h
    · rename_i hp
      split at h
      · cases h
      · rename_i hm
        simp [SymbolTable.declares, hp, hm]

namespace Evaluator

variable {ev : Evaluator} {ctx : Context} {e : Expr} {f : Failure} {m : Macro}

/-! ## Failures of a node's own -/

/-- The node refers to a symbol, and these are the values of its arguments. -/
def ArgumentsAre (ev : Evaluator) (ctx : Context) (e : Expr) (values : List Value) : Prop :=
  ∃ args, e.referenceArgs? = some args ∧
    (ev.evaluateAll (ev.expandWithin (ev.budget ctx)) ctx args).result = .ok values

/-- The node passes on the failure of what it refers to: of a body of its macro, once the call was found
sound, or of its function. -/
inductive PassesOn (ev : Evaluator) (ctx : Context) (values : List Value) : Expr → Failure → Prop
  | body {e name m call r f} : References.nameOf? [] e = some name →
      ctx.symbols.macro? name = some m → (ev.prepare m values ctx).result = .ok call →
      (ev.render (ctx.child m.name call.arguments) call.body).result = .error r → r.failure = f →
      PassesOn ev ctx values e f
  | function {line callee args b f} : ctx.symbols.macro? callee = none →
      ev.functions.global? callee = some b → b.apply values = .error f →
      PassesOn ev ctx values (.call line callee args) f
  | qualified {line moduleName callee args b f} :
      ev.functions.qualified? moduleName callee = some b → b.apply values = .error f →
      PassesOn ev ctx values (.qualifiedCall line moduleName callee args) f

/-- A reference whose arguments have values fails by itself: its symbol is not found, or the call of its
macro cannot be prepared. -/
def FailsItself (ev : Evaluator) (ctx : Context) (e : Expr) (f : Failure) : Prop :=
  ∃ values, ev.ArgumentsAre ctx e values ∧ (ev.evaluate ctx e).result = .error f ∧
    ¬ev.PassesOn ctx values e f

/-! ## Preparing a call -/

theorem prepare_of_length_ne {values : List Value} (h : values.length ≠ m.signature.args.length) :
    (ev.prepare m values ctx).result =
      .error (.wrongArity m.name m.signature.args.length values.length) := by
  rw [prepare, Report.result_bind, Report.result_ofExcept, checkArity, if_neg h]
  rfl

theorem prepare_failsOnly {values : List Value} :
    (ev.prepare m values ctx).result.FailsOnly fun f => f.OfReference →
      values.length ≠ m.signature.args.length ∧
        f = .wrongArity m.name m.signature.args.length values.length := by
  by_cases h : values.length = m.signature.args.length
  · rw [prepare, Report.result_bind, Report.result_ofExcept, checkArity, if_pos h, Except.ok_bind]
    split
    · exact Except.failsOnly_error False.elim
    · rw [Report.result_bind, result_chooseBody]
      exact (Context.chosenBody_failsOnly (fun _ => False.elim) fun _ => False.elim).bind
        fun _ _ => Except.failsOnly_ok
  · rw [prepare_of_length_ne h]
    exact Except.failsOnly_error fun _ => ⟨h, rfl⟩

/-- An expansion fails because the number of arguments is wrong, or its body does. -/
theorem expandWithin_failsOnly {values : List Value} :
    (ev.expandWithin (ev.budget ctx) m values ctx).result.FailsOnly fun f => f.OfReference →
      (values.length ≠ m.signature.args.length ∧
        f = .wrongArity m.name m.signature.args.length values.length) ∨
      ∃ call r, (ev.prepare m values ctx).result = .ok call ∧
        (ev.render (ctx.child m.name call.arguments) call.body).result = .error r ∧ r.failure = f := by
  rw [expandWithin_budget, expandBy, Report.result_bind]
  refine (prepare_failsOnly.mono fun f h hf => .inl (h hf)).bind fun call hcall => ?_
  rw [Report.result_bind, Report.result_mapError]
  refine Except.FailsOnly.bind (Except.FailsOnly.mapError fun r hr _ => ?_) fun _ _ => Except.failsOnly_ok
  exact .inr ⟨call, r, hcall, hr, rfl⟩

/-! ## References that fail by themselves -/

/-- What an expansion does not pass on is that the number of arguments is wrong. -/
theorem arity_of_not_passesOn {name : String} {values : List Value}
    (hname : References.nameOf? [] e = some name) (hm : ctx.symbols.macro? name = some m)
    (hresult : (ev.expandWithin (ev.budget ctx) m values ctx).result = .error f)
    (hf : f.OfReference) (hown : ¬ev.PassesOn ctx values e f) :
    values.length ≠ m.signature.args.length ∧
      f = .wrongArity name m.signature.args.length values.length := by
  obtain rfl := (SymbolTable.mem_of_macro? hm).2
  rcases expandWithin_failsOnly f hresult hf with harity | ⟨call, r, hcall, hr, hrf⟩
  · exact harity
  · exact absurd (.body hname hm hcall hr hrf) hown

/-- A bare name calls its macro without arguments, and fails if the macro takes some. -/
theorem failsItself_of_name {line : Nat} {x : String} (hlookup : ctx.lookup? x = none)
    (hparameter : ctx.symbols.parameter? x = none) (hm : ctx.symbols.macro? x = some m)
    (hargs : m.signature.args ≠ []) :
    ev.FailsItself ctx (.name line x) (.wrongArity x m.signature.args.length 0) := by
  obtain rfl := (SymbolTable.mem_of_macro? hm).2
  have hprepare : (ev.prepare m [] ctx).result =
      .error (.wrongArity m.name m.signature.args.length 0) :=
    prepare_of_length_ne fun h => hargs (List.eq_nil_of_length_eq_zero h.symm)
  refine ⟨[], ⟨[], rfl, rfl⟩, ?_, fun hpasses => ?_⟩
  · have hmeaning : ctx.meaning m.name = .expansion m := by
      simp [Context.meaning, hlookup, hparameter, hm]
    rw [evaluate, evaluateWith, result_evaluateName, hmeaning]
    dsimp only
    rw [expandWithin_budget, expandBy, Report.result_bind, hprepare]
    rfl
  · cases hpasses with
    | body hname hm' hcall =>
        cases hname
        rw [hm] at hm'
        cases hm'
        rw [hprepare] at hcall
        cases hcall

/-- A reference that finds its symbol, and calls it with as many arguments as it takes, fails by itself
only if it is the bare name of a macro that takes some. -/
theorem FailsItself.eq_name (h : ev.FailsItself ctx e f) (hf : f.OfReference)
    (hdangling : ¬e.Dangling ev.functions ctx.symbols)
    (hslice : ∀ r, e.slice? = some r → (ctx.slice? r.key).isSome) :
    ∃ line x m, e = .name line x ∧ ctx.symbols.macro? x = some m ∧ m.signature.args ≠ [] ∧
      f = .wrongArity x m.signature.args.length 0 := by
  obtain ⟨values, ⟨args, hargs, hvalues⟩, hresult, hown⟩ := h
  rw [evaluate] at hresult
  cases e with
  | name line x =>
      cases hargs
      cases hvalues
      rw [evaluateWith, result_evaluateName] at hresult
      cases hmeaning : ctx.meaning x with
      | value v =>
          rw [hmeaning] at hresult
          cases hresult
      | valueless =>
          rw [hmeaning] at hresult
          cases hresult
          exact hf.elim
      | expansion m =>
          rw [hmeaning] at hresult
          have hm := Context.macro?_of_meaning hmeaning
          obtain ⟨hlength, rfl⟩ := arity_of_not_passesOn rfl hm hresult hf hown
          exact ⟨line, x, m, rfl, hm, fun hnil => hlength (hnil ▸ rfl), rfl⟩
      | unknown => exact absurd (.name (Context.declares_of_meaning_unknown hmeaning)) hdangling
  | call line callee args =>
      cases hargs
      rw [evaluateWith, Report.result_bind, hvalues, Except.ok_bind, evaluateCall] at hresult
      cases hm : ctx.symbols.macro? callee with
      | some m =>
          rw [hm] at hresult
          have hlength := (arity_of_not_passesOn rfl hm hresult hf hown).1
          exact absurd (.arity hm (length_of_evaluateAll hvalues ▸ hlength)) hdangling
      | none =>
          rw [hm, Report.result_ofExcept, Registry.call] at hresult
          cases hb : ev.functions.global? callee with
          | some b =>
              rw [hb] at hresult
              exact absurd (.function hm hb hresult) hown
          | none => exact absurd (.call hm hb) hdangling
  | qualifiedCall line moduleName callee args =>
      cases hargs
      rw [evaluateWith, Report.result_bind, hvalues, Except.ok_bind, Report.result_ofExcept] at hresult
      cases hb : ev.functions.qualified? moduleName callee with
      | some b =>
          rw [Registry.callQualified_of_qualified? hb] at hresult
          exact absurd (.qualified hb hresult) hown
      | none => exact absurd (.qualifiedCall hb) hdangling
  | slice line r =>
      obtain ⟨v, hv⟩ := Option.isSome_iff_exists.1 (hslice r rfl)
      rw [evaluateWith, result_evaluateSlice, Context.sliceValue, hv] at hresult
      cases hresult
  | _ => cases hargs

end Evaluator

/-! ## Subjects -/

namespace Subject

variable {functions : Registry} {d : SuiteDefinition} {suite : Suite} {s : Subject}
  {space : ContextSpace} {ctx : Context}

theorem not_dangling_of_unwarned (h : s.warnings functions = []) {e : Expr} (he : e ∈ s.nodes) :
    ¬e.Dangling functions s.symbols := by
  intro hdangling
  obtain ⟨w, hw⟩ := Option.isSome_iff_exists.1 (Expr.isSome_warning?.2 hdangling)
  have hmem : s.nodeWarning? functions false e = none :=
    List.filterMap_eq_nil_iff.1 (List.append_eq_nil_iff.1 h).1 e he
  rw [nodeWarning?, hw] at hmem
  cases hmem

/-- The bare name of a macro that takes arguments fails by itself in every context of a subject. -/
theorem failsItself_of_bare (hsuite : (Suite.compile functions d).result = .ok suite)
    (hs : s ∈ suite.subjects) (config : Config) (hspace : s.space config.prune = .ok space)
    (hctx : ctx ∈ space.contexts) {line : Nat} {x : String} {m : Macro}
    (hm : s.symbols.macro? x = some m) (hargs : m.signature.args ≠ []) :
    (s.evaluator functions config).FailsItself ctx (.name line x)
      (.wrongArity x m.signature.args.length 0) := by
  have hwf := Suite.compile_wellFormed hsuite s hs
  obtain ⟨indices, -, rfl⟩ := exists_indices_of_mem_contexts hctx
  have hsymbols := contextAt_symbols hspace indices
  obtain ⟨hmem, rfl⟩ := SymbolTable.mem_of_macro? hm
  have hparameter : s.symbols.parameter? m.name = none :=
    SymbolTable.parameter?_eq_none.2 fun p hp => hwf.disjoint p hp m hmem
  exact Evaluator.failsItself_of_name (lookup?_of_undeclared hspace hparameter)
    (hsymbols ▸ hparameter) (hsymbols ▸ hm) hargs

/-- In the contexts of a subject that nothing is warned about, no reference in its own templates fails
by itself for want of a symbol or for the number of its arguments, but for the bare names of macros that
take arguments: they do so in every context. -/
theorem failsItself_iff_of_unwarned (hsuite : (Suite.compile functions d).result = .ok suite)
    (hs : s ∈ suite.subjects) (hunwarned : s.warnings functions = []) (config : Config)
    (hspace : s.space config.prune = .ok space) (hctx : ctx ∈ space.contexts) {e : Expr}
    (he : e ∈ s.nodes) {f : Failure} (hf : f.OfReference) :
    (s.evaluator functions config).FailsItself ctx e f ↔
      ∃ line x m, e = .name line x ∧ s.symbols.macro? x = some m ∧ m.signature.args ≠ [] ∧
        f = .wrongArity x m.signature.args.length 0 := by
  constructor
  · intro h
    obtain ⟨indices, hindices, rfl⟩ := exists_indices_of_mem_contexts hctx
    have hsymbols := contextAt_symbols hspace indices
    have hselects := contextAt_selects (Suite.compile_wellFormed hsuite s hs) hspace hindices
    rw [← hsymbols]
    refine h.eq_name hf (hsymbols ▸ not_dangling_of_unwarned hunwarned he) fun r hr => ?_
    exact hselects.slice r ((s.refersWithin_kept config.prune e he).2 r hr)
  · rintro ⟨line, x, m, rfl, hm, hargs, rfl⟩
    exact failsItself_of_bare hsuite hs config hspace hctx hm hargs

/-- A subject whose code is the bare name of a macro that takes an argument. -/
def bareSuite : SuiteDefinition where
  id := "suite"
  subjects := [{
    id := "subject"
    name := "name"
    code := "$\x7bm\x7d"
    macros := [⟨"m(a)", ["$\x7ba\x7d"]⟩] }]

theorem bareSuite_unwarned : ∃ suite s space ctx line m,
    (Suite.compile {} bareSuite).result = .ok suite ∧ s ∈ suite.subjects ∧ s.warnings {} = [] ∧
      s.space false = .ok space ∧ ctx ∈ space.contexts ∧ .name line "m" ∈ s.nodes ∧
      s.symbols.macro? "m" = some m ∧ m.signature.args = ["a"] := by
  have hrun : ((Suite.compile {} bareSuite).result.toOption.bind (·.subjects.head?)).bind
      (fun s => (s.space false).toOption.bind fun space => (s.symbols.macro? "m").map fun m =>
        (s.warnings {}, space.contexts.length, m.signature.args,
          s.nodes.filterMap fun | .name line x => some (line, x) | _ => none)) =
      some ([], 1, ["a"], [(1, "m")]) := by
    decide +kernel
  simp only [Option.bind_eq_some_iff, Option.map_eq_some_iff, Except.toOption_eq_some,
    Prod.mk.injEq] at hrun
  obtain ⟨s, ⟨suite, hsuite, hhead⟩, space, hspace, m, hm, hunwarned, hlength, hargs, hnames⟩ := hrun
  obtain ⟨ctx, hctx⟩ := List.exists_mem_of_length_pos (show 0 < space.contexts.length by omega)
  obtain ⟨e, he, hname⟩ := List.mem_filterMap.1 (hnames ▸ List.mem_singleton_self (1, "m"))
  split at hname
  · cases hname
    exact ⟨suite, s, space, ctx, 1, m, hsuite, List.mem_of_head? hhead, hunwarned, hspace, hctx, he,
      hm, hargs⟩
  · cases hname

theorem failsItself_iff_of_unwarned_bareSuite : ∃ suite s space ctx line,
    (Suite.compile {} bareSuite).result = .ok suite ∧ s ∈ suite.subjects ∧ s.warnings {} = [] ∧
      s.space false = .ok space ∧ ctx ∈ space.contexts ∧ .name line "m" ∈ s.nodes ∧
      Failure.OfReference (.wrongArity "m" 1 0) ∧
      (s.evaluator {} {}).FailsItself ctx (.name line "m") (.wrongArity "m" 1 0) := by
  obtain ⟨suite, s, space, ctx, line, m, hsuite, hs, hunwarned, hspace, hctx, he, hm, hargs⟩ :=
    bareSuite_unwarned
  have hne : m.signature.args ≠ [] := hargs ▸ List.cons_ne_nil _ _
  have hiff := failsItself_iff_of_unwarned hsuite hs hunwarned {} hspace hctx he
    (f := .wrongArity "m" m.signature.args.length 0) trivial
  have hfails := hiff.2 ⟨line, "m", m, rfl, hm, hne, rfl⟩
  rw [hargs] at hfails
  exact ⟨suite, s, space, ctx, line, hsuite, hs, hunwarned, hspace, hctx, he, trivial, hfails⟩

/-- Nothing is recorded while the suite is compiled, and yet a name in the subject's own code fails by
itself for the number of its arguments. -/
theorem bareSuite_fails : ∃ suite s space ctx e,
    (Suite.compile {} bareSuite).log = [] ∧ (Suite.compile {} bareSuite).result = .ok suite ∧
      s ∈ suite.subjects ∧ s.warnings {} = [] ∧ s.space false = .ok space ∧ ctx ∈ space.contexts ∧
      e ∈ s.nodes ∧ (s.evaluator {} {}).FailsItself ctx e (.wrongArity "m" 1 0) := by
  obtain ⟨suite, s, space, ctx, line, m, hsuite, hs, hunwarned, hspace, hctx, he, hm, hargs⟩ :=
    bareSuite_unwarned
  have hlog : (Suite.compile {} bareSuite).log = [] := by decide +kernel
  have hne : m.signature.args ≠ [] := hargs ▸ List.cons_ne_nil _ _
  have hfails : (s.evaluator {} {}).FailsItself ctx (.name line "m")
      (.wrongArity "m" m.signature.args.length 0) :=
    failsItself_of_bare hsuite hs {} hspace hctx hm hne
  rw [hargs] at hfails
  exact ⟨suite, s, space, ctx, _, hlog, hsuite, hs, hunwarned, hspace, hctx, he, hfails⟩

end Subject

end Variorum
