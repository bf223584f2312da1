import Variorum.Proofs.Evaluation.Agreement
import Variorum.Proofs.Evaluation.Parts

/-!
# Quiet evaluation

In a context that selects for everything an expression can refer to, no value is taken for want of a
selection. Nothing is recorded there, at whatever depth, and no failure is the evaluation's own.
-/

namespace Variorum

namespace Failure

/-- The failure is the evaluation's own and not one of what is evaluated. -/
def IsInternal : Failure → Prop
  | .internal _ => True
  | _ => False

theorem OfArguments.not_isInternal {f : Failure} (h : f.OfArguments) : ¬f.IsInternal := by
  cases f with
  | internal => exact h.elim
  | _ => exact not_false

end Failure

/-! ## Quiet reports -/

/-- Nothing is recorded, and there is no failure of a given kind. -/
structure Report.Quiet {ε α : Type} (C : ε → Prop) (r : Report ε α) : Prop where
  log : r.log = []
  result : r.result.FailsOnly fun e => ¬C e

namespace Report

variable {ε ε' α β : Type} {C : ε → Prop} {r : Report ε α}

theorem quiet_done {a : α} : (done a : Report ε α).Quiet C :=
  ⟨rfl, Except.failsOnly_ok⟩

theorem done_bind (a : α) (f : α → Report ε β) : (done a >>= f) = f a := rfl

theorem quiet_fail {e : ε} (h : ¬C e) : (fail e : Report ε α).Quiet C :=
  ⟨rfl, Except.failsOnly_error h⟩

theorem quiet_ofExcept {x : Except ε α} (h : x.FailsOnly fun e => ¬C e) : (ofExcept x).Quiet C :=
  ⟨rfl, h⟩

theorem Quiet.bind {f : α → Report ε β} (hr : r.Quiet C)
    (hf : ∀ a, r.result = .ok a → (f a).Quiet C) : (r >>= f).Quiet C := by
  constructor
  · rw [log_bind, hr.log, List.nil_append]
    split
    · rename_i a ha
      exact (hf a ha).log
    · rfl
  · rw [result_bind]
    exact hr.result.bind fun a ha => (hf a ha).result

theorem Quiet.of_mapError {C : ε' → Prop} {f : ε → ε'} (h : (r.mapError f).Quiet C) :
    r.Quiet fun e => C (f e) :=
  ⟨h.log, h.result.of_mapError⟩

theorem compositional_quiet : Compositional fun r : Report ε _ => r.Quiet C where
  done _ := quiet_done
  bind := Quiet.bind

end Report

/-! ## Contexts that select -/

/-- The context selects for whatever the names, the slices and the arguments can stand for. -/
structure Context.Selects (names : String → Prop) (slices : SliceRef → Prop) (args : List String)
    (ctx : Context) : Prop where
  parameter : ∀ name, names name → (ctx.symbols.parameter? name).isSome → (ctx.lookup? name).isSome
  bound : ∀ name ∈ args, (ctx.lookup? name).isSome
  body : ∀ name, names name → ∀ m, ctx.symbols.macro? name = some m →
    ∃ index < m.bodies.length, ctx.body? name = some index
  slice : ∀ s, slices s → (ctx.slice? s.key).isSome

variable {names : String → Prop} {slices : SliceRef → Prop} {args : List String} {ctx : Context}

/-- An expansion binds its arguments and keeps what is selected outside. -/
theorem Context.Selects.child (h : ctx.Selects names slices args) {m : Macro} {values : List Value}
    (hlen : values.length = m.signature.args.length) :
    (ctx.child m.name (m.signature.args.zip values)).Selects names slices m.signature.args := by
  have hmap : (m.signature.args.zip values).map (·.1) = m.signature.args :=
    List.map_fst_zip (Nat.le_of_eq hlen.symm)
  constructor
  · intro name hname hparameter
    rw [lookup?_child, Option.isSome_or, h.parameter name hname hparameter, Bool.or_true]
  · intro name hname
    rw [lookup?_child, Option.isSome_or, isSome_assoc?_ofArgs (hmap.symm ▸ hname), Bool.true_or]
  · intro name hname k hk
    rw [body?_child]
    exact h.body name hname k hk
  · intro s hs
    rw [slice?_child]
    exact h.slice s hs

/-! ## Evaluation -/

namespace Evaluator

variable {C : Failure → Prop} {ev : Evaluator} {expand : Expansion}

/-- Macros among the names expand quietly. -/
def ExpandsQuietly (C : Failure → Prop) (names : String → Prop) (expand : Expansion) (ctx : Context) :
    Prop :=
  ∀ name, names name → ∀ m, ctx.symbols.macro? name = some m →
    ∀ values, (expand m values ctx).Quiet C

theorem chooseBody_of_body? {m : Macro} {index : Nat} (h : ctx.body? m.name = some index)
    (hindex : index < m.bodies.length) : ev.chooseBody m ctx = .done (index, m.bodies[index]) := by
  simp only [chooseBody, chooseIndex, h, Report.done_bind, List.getElem?_eq_getElem hindex]
  rfl

theorem evaluateSlice_quiet (h : ctx.Selects names slices args) {s : SliceRef} (hs : slices s)
    {source : Expr} : (ev.evaluateSlice ctx s source).Quiet C := by
  obtain ⟨v, hv⟩ := Option.isSome_iff_exists.1 (h.slice s hs)
  simp only [evaluateSlice, hv]
  exact Report.quiet_done

section

variable (hC : ∀ f, C f → f.IsInternal)
include hC

theorem evaluateName_quiet (h : ctx.Selects names slices args)
    (hexpand : ExpandsQuietly C names expand ctx) {name : String} {source : Expr}
    (hname : names name ∨ name ∈ args) : (ev.evaluateName expand ctx name source).Quiet C := by
  unfold evaluateName
  split
  · exact Report.quiet_done
  · rename_i hlookup
    have hname : names name := hname.resolve_right fun hargs => by
      have hbound := h.bound name hargs
      rw [hlookup] at hbound
      cases hbound
    split
    · rename_i p hp
      have hselected := h.parameter name hname (by rw [hp]; rfl)
      rw [hlookup] at hselected
      cases hselected
    · split
      · rename_i m hm
        exact hexpand name hname m hm []
      · exact Report.quiet_fail (hC _)

variable (hfunctions : ev.functions.FailsOnly fun f => ¬C f)
include hfunctions

theorem partsHave_quiet (h : ctx.Selects names slices args)
    (hexpand : ExpandsQuietly C names expand ctx) {nodes : List Expr}
    (hrefs : RefersWithin names slices args nodes) (hvalid : ∀ error, .invalid error ∉ nodes) :
    PartsHave (fun r => r.Quiet C) ev expand ctx nodes where
  operation _ hr := Report.quiet_ofExcept (hr.mono fun f hf hCf => hf.not_isInternal (hC f hCf))
  name line x hx := by
    refine evaluateName_quiet hC h hexpand ?_
    exact RefersWithin.name (hrefs.mono (List.cons_subset.2 ⟨hx, List.nil_subset _⟩))
  call line callee es hcall values _ := by
    unfold evaluateCall
    split
    · rename_i m hm
      exact hexpand callee ((hrefs _ hcall).1 callee rfl) m hm values
    · exact Report.quiet_ofExcept (hfunctions.call fun _ _ => hC _)
  qualifiedCall _ _ _ _ _ _ :=
    Report.quiet_ofExcept (hfunctions.callQualified fun _ _ => hC _)
  slice line s hs := evaluateSlice_quiet h ((hrefs _ hs).2 s rfl)
  invalid error herror := absurd herror (hvalid error)

/-- The induction is on how deep calls may still nest. A body is selected for every macro that is
reached, and what the body refers to is selected for or an argument. -/
theorem expandWithin_quiet (budget : Nat) (h : ctx.Selects names slices args)
    (hclosed : ctx.symbols.ClosedUnder names slices) :
    ExpandsQuietly C names (ev.expandWithin budget) ctx := by
  have harity : ∀ {m values}, (checkArity m values).FailsOnly fun f => ¬C f := fun {m values} =>
    checkArity_failsOnly.mono fun f hf hCf => hf.not_isInternal (hC f hCf)
  induction budget generalizing args ctx with
  | zero =>
      intro name _ m _ values
      exact (Report.quiet_ofExcept harity).bind fun _ _ => Report.quiet_fail (hC _)
  | succ budget ih =>
      intro name hname m hm values
      obtain rfl : m.name = name := (SymbolTable.mem_of_macro? hm).2
      obtain ⟨index, hindex, hbody⟩ := h.body m.name hname m hm
      simp only [expandWithin, chooseBody_of_body? hbody hindex, Report.done_bind]
      refine (Report.quiet_ofExcept harity).bind fun _ hlen => ?_
      have hinner := h.child (checkArity_eq_ok.1 hlen)
      have hrefs := hclosed m.name hname m hm _ (List.getElem_mem hindex)
      have hparts := partsHave_quiet hC hfunctions hinner (ih hinner hclosed) hrefs
        fun _ => Template.invalid_not_mem_nodes
      exact (hparts.renderWith Report.compositional_quiet).bind fun _ _ => Report.quiet_done

theorem render_quiet (h : ctx.Selects names slices args)
    (hclosed : ctx.symbols.ClosedUnder names slices) {t : Template}
    (hrefs : RefersWithin names slices args t.nodes) :
    (ev.render ctx t).Quiet fun f => C f.failure := by
  have hexpand := expandWithin_quiet hC hfunctions (ev.budget ctx) h hclosed
  have hparts := partsHave_quiet hC hfunctions h hexpand hrefs fun _ => Template.invalid_not_mem_nodes
  exact (hparts.renderWith Report.compositional_quiet).of_mapError

end

end Evaluator

/-! ## Subjects -/

namespace Subject

variable {s : Subject} {config : Config} {ev : Evaluator}

theorem render_quiet {C : Failure → Prop} (hC : ∀ f, C f → f.IsInternal)
    (hfunctions : ev.functions.FailsOnly fun f => ¬C f) (h : ctx.Selects names slices args)
    (hclosed : ctx.symbols.ClosedUnder names slices) (hrefs : RefersWithin names slices args s.nodes) :
    (s.render config ev ctx).Quiet fun f => C f.failure :=
  render_of_templates Report.compositional_quiet fun _ ht =>
    Evaluator.render_quiet hC hfunctions h hclosed (hrefs.mono (nodes_subset ht))

end Subject

end Variorum
