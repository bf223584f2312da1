import Mathlib.Data.List.Chain
import Mathlib.Data.List.Nodup
import Mathlib.Data.List.Perm.Subperm
import Mathlib.Logic.Relation
import Variorum.Proofs.Evaluation.Nesting
import Variorum.Proofs.Evaluation.Parts
import Variorum.Proofs.Library.Refusals
import Variorum.Proofs.Symbols.WellFormed

/-!
# Calls that nest too deep

An evaluation fails for the depth of its calls only along a chain of macros, each of them referred to by
the body that the one before it renders. A chain with more links than there are macros runs through one
of them twice, and so shows a cycle.
-/

namespace Variorum

/-- A body of the macro of one name names or calls the other one. -/
def SymbolTable.RefersTo (symbols : SymbolTable) (name next : String) : Prop :=
  ∃ m, symbols.macro? name = some m ∧ ∃ body ∈ m.bodies, Refers body.nodes next

/-- A chain that meets something twice has gone round in a circle. -/
theorem exists_cycle_of_isChain {α : Type} {r : α → α → Prop} {as : List α} (h : as.IsChain r)
    (hnodup : ¬as.Nodup) : ∃ a ∈ as, Relation.TransGen r a a := by
  rw [List.nodup_iff_sublist] at hnodup
  obtain ⟨a, ha⟩ := not_forall_not.1 hnodup
  have hpairs : as.Pairwise (Relation.TransGen r) := (h.imp fun _ _ => .single).pairwise
  exact ⟨a, ha.subset List.mem_cons_self, List.pairwise_pair.1 (hpairs.sublist ha)⟩

namespace Context

variable {ctx : Context} {nodes : List Expr} {names : List String}

/-- The body that the macro of one name renders in a context names or calls the other one. -/
def Follows (ctx : Context) (name next : String) : Prop :=
  ∃ m index body, ctx.symbols.macro? name = some m ∧ ctx.chosenBody m = .ok (index, body) ∧
    Refers body.nodes next

theorem Follows.refersTo {name next : String} (h : ctx.Follows name next) :
    ctx.symbols.RefersTo name next := by
  obtain ⟨m, index, body, hm, hbody, hrefers⟩ := h
  exact ⟨m, hm, body, mem_bodies_of_chosenBody hbody, hrefers⟩

/-- Macros that expand inside one another: the first is referred to by the given expressions, each
further one by the body that the one before it renders. -/
inductive Descends (ctx : Context) : List Expr → List String → Prop
  | last {nodes : List Expr} {name : String} {m : Macro} (hrefers : Refers nodes name)
      (hm : ctx.symbols.macro? name = some m) : Descends ctx nodes [name]
  | next {nodes : List Expr} {name : String} {m : Macro} {index : Nat} {body : Template}
      {names : List String} (hrefers : Refers nodes name) (hm : ctx.symbols.macro? name = some m)
      (hbody : ctx.chosenBody m = .ok (index, body)) (hnames : Descends ctx body.nodes names) :
      Descends ctx nodes (name :: names)

/-- An expansion changes neither the macros nor the bodies that they render. -/
theorem Descends.of_child {callee : String} {arguments : List (String × Value)}
    (h : (ctx.child callee arguments).Descends nodes names) : ctx.Descends nodes names := by
  induction h with
  | last hrefers hm => exact .last hrefers hm
  | next hrefers hm hbody _ ih => exact .next hrefers hm (chosenBody_child.symm.trans hbody) ih

theorem Descends.head (h : ctx.Descends nodes names) : ∃ name ∈ names.head?, Refers nodes name := by
  cases h with
  | last hrefers _ => exact ⟨_, rfl, hrefers⟩
  | next hrefers _ _ _ => exact ⟨_, rfl, hrefers⟩

theorem Descends.isChain (h : ctx.Descends nodes names) : names.IsChain ctx.Follows := by
  induction h with
  | last _ _ => exact .singleton _
  | @next _ name m index body names _ hm hbody hnames ih =>
      obtain ⟨next, hnext, hrefers⟩ := hnames.head
      obtain ⟨rest, rfl⟩ : ∃ rest, names = next :: rest := List.head?_eq_some_iff.1 hnext
      exact List.isChain_cons_cons.2 ⟨⟨m, index, body, hm, hbody, hrefers⟩, ih⟩

theorem Descends.subset_macros (h : ctx.Descends nodes names) :
    names ⊆ ctx.symbols.macros.map Macro.name := by
  have hmem : ∀ {name m}, ctx.symbols.macro? name = some m →
      name ∈ ctx.symbols.macros.map Macro.name := fun hm =>
    List.mem_map.2 ⟨_, SymbolTable.mem_of_macro? hm⟩
  induction h with
  | last _ hm => exact List.cons_subset.2 ⟨hmem hm, List.nil_subset _⟩
  | next _ hm _ _ ih => exact List.cons_subset.2 ⟨hmem hm, ih⟩

theorem Descends.exists_cycle (h : ctx.Descends nodes names)
    (hlength : ctx.symbols.macros.length < names.length) :
    ∃ name ∈ names, Relation.TransGen ctx.symbols.RefersTo name name := by
  refine exists_cycle_of_isChain (h.isChain.imp fun _ _ => Follows.refersTo) fun hnodup => ?_
  have hle := (List.subperm_of_subset hnodup h.subset_macros).length_le
  rw [List.length_map] at hle
  omega

end Context

namespace Evaluator

variable {ev : Evaluator} {expand : Expansion} {ctx : Context} {nodes : List Expr}

/-! ## Where a failure comes from -/

variable {P : Failure → Prop}

/-- Whatever the macros that the expressions refer to fail with when they are expanded has a
property. -/
def ExpandsFailingOnly (P : Failure → Prop) (expand : Expansion) (ctx : Context)
    (nodes : List Expr) : Prop :=
  ∀ name, Refers nodes name → ∀ m, ctx.symbols.macro? name = some m →
    ∀ args, (expand m args ctx).result.FailsOnly P

theorem evaluateSlice_failsOnly (hlocal : ∀ f, ¬f.IsCyclic → P f) {s : SliceRef} {source : Expr} :
    (ev.evaluateSlice ctx s source).result.FailsOnly P := by
  have hcandidates : (s.candidates ctx.symbols).FailsOnly P := by
    unfold SliceRef.candidates
    split
    · exact Except.failsOnly_error (hlocal _ id)
    · exact Slice.select_failsOnly.mono fun f hf => hlocal f hf.not_isCyclic
  rw [result_evaluateSlice]
  unfold Context.sliceValue
  split
  · exact Except.failsOnly_ok
  · split
    · exact Except.failsOnly_ok
    · exact Except.failsOnly_error (hlocal _ id)
    · rename_i f hf
      exact Except.failsOnly_error (hcandidates f hf)

theorem evaluateName_failsOnly (hlocal : ∀ f, ¬f.IsCyclic → P f)
    (hexpand : ExpandsFailingOnly P expand ctx nodes) {line : Nat} {name : String}
    (hname : .name line name ∈ nodes) {source : Expr} :
    (ev.evaluateName expand ctx name source).result.FailsOnly P := by
  rw [result_evaluateName]
  cases hm : ctx.meaning name with
  | value v => exact Except.failsOnly_ok
  | valueless => exact Except.failsOnly_error (hlocal _ id)
  | expansion m => exact hexpand name ⟨line, .inl hname⟩ m (Context.macro?_of_meaning hm) []
  | unknown => exact Except.failsOnly_error (hlocal _ id)

theorem evaluateCall_failsOnly (hlocal : ∀ f, ¬f.IsCyclic → P f)
    (hfunctions : ev.functions.FailsOnly P) (hexpand : ExpandsFailingOnly P expand ctx nodes)
    {callee : String} (hcallee : Refers nodes callee) {args : List Value} :
    (ev.evaluateCall expand ctx callee args).result.FailsOnly P := by
  unfold evaluateCall
  split
  · rename_i m hm
    exact hexpand callee hcallee m hm args
  · exact hfunctions.call fun _ _ => hlocal _ id

theorem partsHave_failsOnly (hlocal : ∀ f, ¬f.IsCyclic → P f) (hfunctions : ev.functions.FailsOnly P)
    (hexpand : ExpandsFailingOnly P expand ctx nodes) :
    PartsHave (fun r => r.result.FailsOnly P) ev expand ctx nodes where
  operation _ hr := hr.mono fun f hf => hlocal f hf.not_isCyclic
  name _ _ hname := evaluateName_failsOnly hlocal hexpand hname
  call line _ es hcall _ _ :=
    evaluateCall_failsOnly hlocal hfunctions hexpand ⟨line, .inr ⟨es, hcall⟩⟩
  qualifiedCall _ _ _ _ _ _ := hfunctions.callQualified fun _ _ => hlocal _ id
  slice _ _ _ := evaluateSlice_failsOnly hlocal
  invalid _ _ := by
    rw [evaluateWith]
    exact Except.failsOnly_error (hlocal _ id)

theorem renderWith_failsOnly (hlocal : ∀ f, ¬f.IsCyclic → P f) (hfunctions : ev.functions.FailsOnly P)
    {t : Template} (hexpand : ExpandsFailingOnly P expand ctx t.nodes) :
    (ev.renderWith expand ctx t).result.FailsOnly fun f => P f.failure :=
  ((partsHave_failsOnly hlocal hfunctions hexpand).renderWith
    Report.compositional_failsOnly).of_mapError

/-! ## The chain of a failure -/

/-- If the failure is that calls nest too deep, it shows the macros that are being expanded and, behind
them, `count` ones that expand inside one another. -/
def Traces (ev : Evaluator) (ctx : Context) (nodes : List Expr) (count : Nat) (f : Failure) : Prop :=
  ∀ path limit, f = .cyclicExpansion path limit →
    limit = ev.maxDepth ∧
      ∃ names, path = ctx.path ++ names ∧ names.length = count ∧ ctx.Descends nodes names

theorem traces_of_not_isCyclic {count : Nat} {f : Failure} (h : ¬f.IsCyclic) :
    ev.Traces ctx nodes count f := by
  rintro path limit rfl
  exact absurd trivial h

/-- The failure of a body that is rendered in an expansion, seen from the call. -/
theorem Traces.of_child {m : Macro} {name : String} {arguments : List (String × Value)} {index : Nat}
    {body : Template} {count : Nat} {f : Failure} (hrefers : Refers nodes name)
    (hm : ctx.symbols.macro? name = some m) (hbody : ctx.chosenBody m = .ok (index, body))
    (h : ev.Traces (ctx.child m.name arguments) body.nodes count f) :
    ev.Traces ctx nodes (count + 1) f := by
  have hname : m.name = name := (SymbolTable.mem_of_macro? hm).2
  intro path limit hf
  obtain ⟨hlimit, names, hpath, hlength, hnames⟩ := h path limit hf
  refine ⟨hlimit, name :: names, ?_, congrArg (· + 1) hlength, .next hrefers hm hbody hnames.of_child⟩
  rw [hpath, Context.path_child, hname, List.append_assoc, List.singleton_append]

/-- The induction is on how deep calls may still nest, and so many links the chain has. -/
theorem expandWithin_traces (hfunctions : ev.functions.FailsOnly fun f => ¬f.IsCyclic)
    (budget : Nat) (ctx : Context) (nodes : List Expr) :
    ExpandsFailingOnly (ev.Traces ctx nodes (budget + 1)) (ev.expandWithin budget) ctx nodes := by
  induction budget generalizing ctx nodes with
  | zero =>
      intro name hrefers m hm args
      have hname : m.name = name := (SymbolTable.mem_of_macro? hm).2
      simp only [expandWithin, Report.result_bind, Report.result_ofExcept, Report.result_fail]
      refine (checkArity_failsOnly.mono fun f hf => traces_of_not_isCyclic hf.not_isCyclic).bind
        fun _ _ => Except.failsOnly_error ?_
      rintro path limit ⟨⟩
      exact ⟨rfl, [name], by rw [hname], rfl, .last hrefers hm⟩
  | succ budget ih =>
      intro name hrefers m hm args
      simp only [expandWithin, Report.result_bind, Report.result_ofExcept, Report.result_mapError,
        result_chooseBody]
      refine (checkArity_failsOnly.mono fun f hf => traces_of_not_isCyclic hf.not_isCyclic).bind
        fun _ _ => (Context.chosenBody_failsOnly (fun _ => traces_of_not_isCyclic id)
          fun _ => traces_of_not_isCyclic id).bind fun chosen hbody => ?_
      have hrender := renderWith_failsOnly (fun _ => traces_of_not_isCyclic)
        (fun f hf args => (hfunctions f hf args).mono fun _ => traces_of_not_isCyclic)
        (ih (ctx.child m.name (m.signature.args.zip args)) chosen.2.nodes)
      refine Except.FailsOnly.bind (Except.FailsOnly.mapError ?_) fun _ _ => Except.failsOnly_ok
      exact hrender.mono fun f hf => hf.of_child hrefers hm hbody

theorem evaluate_traces (hfunctions : ev.functions.FailsOnly fun f => ¬f.IsCyclic) {e : Expr} :
    (ev.evaluate ctx e).result.FailsOnly (ev.Traces ctx e.nodes (ev.budget ctx + 1)) :=
  (partsHave_failsOnly (fun _ => traces_of_not_isCyclic)
    (hfunctions.mono fun _ => traces_of_not_isCyclic)
    (expandWithin_traces hfunctions (ev.budget ctx) ctx e.nodes)).evaluateWith
      Report.compositional_failsOnly e (List.Subset.refl _)

/-- An evaluation goes through renderings that do not nest without end, that are never deeper than the
bound, and that alone decide what it comes to: whatever follows the rule of rendering in them comes to
the same. If it fails because calls nest too deep, then it shows a chain of macros from the expression on
that is one longer than the bound. -/
theorem expansion_bounded (ev : Evaluator)
    (hfunctions : ev.functions.FailsOnly fun f => ¬f.IsCyclic) (ctx : Context)
    (hroot : ctx.calls = []) (e : Expr) :
    (WellFounded fun inner outer : Context × Template => ev.Nests outer.1 outer.2.nodes inner) ∧
    (∀ inner, ev.Reaches ctx e.nodes inner → inner.1.depth ≤ ev.maxDepth) ∧
    (∀ c t, ev.render c t = ev.renderWith (ev.expandBy ev.render) c t) ∧
    (∀ render : Rendering,
      (∀ inner, ev.Reaches ctx e.nodes inner →
        render inner.1 inner.2 = ev.renderWith (ev.expandBy render) inner.1 inner.2) →
      ev.evaluate ctx e = ev.evaluateWith (ev.expandBy render) ctx e) ∧
    ∀ path limit, (ev.evaluate ctx e).result = .error (.cyclicExpansion path limit) →
      limit = ev.maxDepth ∧ path.length = ev.maxDepth + 1 ∧
      (∃ first ∈ path.head?, Refers e.nodes first) ∧ path.IsChain ctx.Follows ∧
      (ctx.symbols.macros.length ≤ ev.maxDepth →
        ∃ name ∈ path, Relation.TransGen ctx.symbols.RefersTo name name) := by
  refine ⟨ev.nests_wellFounded, fun _ h => h.depth_le, fun c t => render_eq fun _ _ => rfl,
    fun render hrule => evaluate_eq fun inner h => Reaches.render_unique hrule (.first h),
    fun path limit hfails => ?_⟩
  obtain ⟨hlimit, names, hpath, hlength, hnames⟩ := evaluate_traces hfunctions _ hfails path limit rfl
  have hempty : ctx.path = [] := by rw [Context.path, hroot]; rfl
  have hbudget : ev.budget ctx = ev.maxDepth := by rw [budget, Context.depth, hroot]; rfl
  rw [hempty, List.nil_append] at hpath
  rw [hbudget] at hlength
  subst hpath
  exact ⟨hlimit, hlength, hnames.head, hnames.isChain, fun hmacros =>
    hnames.exists_cycle (by omega)⟩

/-- Two macros without arguments that call each other. -/
def pingPong : Except CompileError SymbolTable := do
  let ping ← Template.compile "$\x7bpong()\x7d"
  let pong ← Template.compile "<$\x7bping\x7d>"
  return { macros := [⟨⟨"ping", []⟩, [ping]⟩, ⟨⟨"pong", []⟩, [pong]⟩] }

theorem expansion_bounded_pingPong : ∃ symbols, pingPong = .ok symbols ∧
    (evaluate { functions := Library.standard, maxDepth := 2 } (.root symbols)
      (.name 1 "ping")).result = .error (.cyclicExpansion ["ping", "pong", "ping"] 2) ∧
    ∃ name ∈ ["ping", "pong", "ping"], Relation.TransGen symbols.RefersTo name name := by
  have hrun : pingPong.toOption.map (fun symbols => (symbols.macros.length,
      (evaluate { functions := Library.standard, maxDepth := 2 } (.root symbols)
        (.name 1 "ping")).result.error?)) =
      some (2, some (.cyclicExpansion ["ping", "pong", "ping"] 2)) := by
    decide +kernel
  simp only [Option.map_eq_some_iff, Except.toOption_eq_some, Prod.mk.injEq] at hrun
  obtain ⟨symbols, hsymbols, hmacros, hfails⟩ := hrun
  have hfails := Except.error?_eq_some.1 hfails
  have hbounded := expansion_bounded { functions := Library.standard, maxDepth := 2 }
    (Library.standard_failsOnly.mono fun _ => Failure.OfArguments.not_isCyclic)
    (.root symbols) rfl (.name 1 "ping")
  obtain ⟨-, -, -, -, hcycle⟩ := hbounded.2.2.2.2 _ _ hfails
  exact ⟨symbols, hsymbols, hfails, hcycle hmacros.le⟩

end Evaluator

end Variorum
