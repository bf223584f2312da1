import Variorum.Proofs.Evaluation.Quietness
import Variorum.Proofs.Suite.Pruning

/-!
# Contexts cover what a subject reads

With or without pruning, every context of a subject selects for each parameter, macro and slice that the
subject can read, and a selected body is one that the macro has. So nothing is taken by default while the
subject is rendered, and the evaluator meets no failure of its own.
-/

namespace Variorum.Subject

variable {s : Subject} {prune : Bool} {space : ContextSpace} {indices : List Nat}

/-! ## What a subject reads -/

/-- The parameter or the macro of the name is an axis, if there is one. -/
def KeepsName (s : Subject) (prune : Bool) (name : String) : Prop :=
  isKept (s.keptNames prune) name = true

/-- The slice is an axis. -/
def KeepsSlice (s : Subject) (prune : Bool) (r : SliceRef) : Prop :=
  ∃ e ∈ s.keptNodes prune, e.slice? = some r

theorem keepsName_pruned (s : Subject) : s.KeepsName true = (· ∈ References.collect s) :=
  funext fun _ => propext isKept_pruned

theorem closedUnder_kept (s : Subject) (prune : Bool) :
    s.symbols.ClosedUnder (s.KeepsName prune) (s.KeepsSlice prune) := by
  cases prune with
  | true => exact s.keepsName_pruned ▸ s.closedUnder_collect
  | false =>
      intro name _ m hm body hbody e he
      refine ⟨fun x _ => isKept_full x, fun r hr => ⟨e, List.mem_append_right _ ?_, hr⟩⟩
      refine List.mem_flatMap.2 ⟨body, List.mem_flatMap.2 ⟨m, ?_, hbody⟩, he⟩
      exact List.mem_filter.2 ⟨(SymbolTable.mem_of_macro? hm).1, isKept_full m.name⟩

theorem refersWithin_kept (s : Subject) (prune : Bool) :
    RefersWithin (s.KeepsName prune) (s.KeepsSlice prune) [] s.nodes := by
  cases prune with
  | true => exact s.keepsName_pruned ▸ s.refersWithin_collect
  | false =>
      exact fun e he =>
        ⟨fun x _ => isKept_full x, fun r hr => ⟨e, List.mem_append_left _ he, hr⟩⟩

/-! ## What a context selects -/

theorem contextAt_symbols (h : s.space prune = .ok space) (indices : List Nat) :
    (space.contextAt indices).symbols = s.symbols := by
  rw [ContextSpace.contextAt_symbols.1, space_symbols h]

/-- No context gives a value to a name that is not a parameter. -/
theorem lookup?_of_undeclared (h : s.space prune = .ok space) {name : String}
    (hname : s.symbols.parameter? name = none) : (space.contextAt indices).lookup? name = none := by
  have hslot : .parameter name ∉ space.axes.map Axis.slot := by
    intro hmem
    obtain ⟨a, ha, he⟩ := List.mem_map.1 hmem
    rcases (mem_axes h).1 ha with ⟨hp, -⟩ | ⟨-, -⟩ | ⟨-, -, -⟩
    · exact SymbolTable.parameter?_eq_none.1 hname _ hp (Slot.parameter.inj he)
    · cases he
    · cases he
  exact Option.map_eq_none_iff.1 (ContextSpace.selected?_contextAt_of_not_mem hslot)

theorem selected?_of_hasAxis (hwf : s.symbols.WellFormed) (h : s.space prune = .ok space)
    (hindices : List.Forall₂ (· < ·) indices space.sizes) {a : Axis} (ha : s.HasAxis prune a) :
    ∃ index ∈ indices, index < a.size ∧
      (space.contextAt indices).selected? a.slot = a.at? index := by
  obtain ⟨index, hmem, hlt⟩ := ContextSpace.exists_index hindices ((mem_axes h).2 ha)
  have hlen := ContextSpace.length_of_below hindices
  exact ⟨index, (List.of_mem_zip hmem).2, hlt,
    ContextSpace.selected?_contextAt (slots_nodup hwf h) hlen hmem⟩

theorem lookup?_of_mem (hwf : s.symbols.WellFormed) (h : s.space prune = .ok space)
    (hindices : List.Forall₂ (· < ·) indices space.sizes) {p : Parameter}
    (hp : p ∈ s.symbols.parameters) (hkept : s.KeepsName prune p.name) :
    ∃ index ∈ indices, index < p.values.length ∧
      (space.contextAt indices).lookup? p.name = p.values[index]? := by
  obtain ⟨index, hindex, hlt, hselected⟩ :=
    selected?_of_hasAxis hwf h hindices (.parameter hp hkept)
  exact ⟨index, hindex, hlt, Option.map_injective (fun _ _ => Sum.inl.inj) hselected⟩

theorem body?_of_mem (hwf : s.symbols.WellFormed) (h : s.space prune = .ok space)
    (hindices : List.Forall₂ (· < ·) indices space.sizes) {m : Macro}
    (hm : m ∈ s.symbols.macros) (hkept : s.KeepsName prune m.name) :
    ∃ index ∈ indices, index < m.bodies.length ∧
      (space.contextAt indices).body? m.name = some index := by
  obtain ⟨index, hindex, hlt, hselected⟩ := selected?_of_hasAxis hwf h hindices (.bodies hm hkept)
  exact ⟨index, hindex, hlt, Option.map_injective (fun _ _ => Sum.inr.inj) hselected⟩

theorem slice?_of_keepsSlice (hwf : s.symbols.WellFormed) (h : s.space prune = .ok space)
    (hindices : List.Forall₂ (· < ·) indices space.sizes) {r : SliceRef}
    (hr : s.KeepsSlice prune r) :
    ∃ values, r.candidates s.symbols = .ok values ∧ ∃ index ∈ indices, index < values.length ∧
      (space.contextAt indices).slice? r.key = values[index]? := by
  obtain ⟨e, he, hr⟩ := hr
  obtain ⟨values, hvalues⟩ := exists_space.1 ⟨space, h⟩ e he r hr
  obtain ⟨index, hindex, hlt, hselected⟩ :=
    selected?_of_hasAxis hwf h hindices (.slice he hr hvalues)
  exact ⟨values, hvalues, index, hindex, hlt, Option.map_injective (fun _ _ => Sum.inl.inj) hselected⟩

theorem contextAt_selects (hwf : s.symbols.WellFormed) (h : s.space prune = .ok space)
    (hindices : List.Forall₂ (· < ·) indices space.sizes) :
    (space.contextAt indices).Selects (s.KeepsName prune) (s.KeepsSlice prune) [] := by
  constructor
  · intro name hname hparameter
    rw [contextAt_symbols h indices] at hparameter
    obtain ⟨p, hp⟩ := Option.isSome_iff_exists.1 hparameter
    obtain ⟨hmem, rfl⟩ := SymbolTable.mem_of_parameter? hp
    obtain ⟨index, -, hlt, hlookup⟩ := lookup?_of_mem hwf h hindices hmem hname
    rw [hlookup, List.getElem?_eq_getElem hlt]
    rfl
  · exact fun _ hname => absurd hname List.not_mem_nil
  · intro name hname m hm
    rw [contextAt_symbols h indices] at hm
    obtain ⟨hmem, rfl⟩ := SymbolTable.mem_of_macro? hm
    obtain ⟨index, -, hlt, hbody⟩ := body?_of_mem hwf h hindices hmem hname
    exact ⟨index, hlt, hbody⟩
  · intro r hr
    obtain ⟨values, -, index, -, hlt, hslice⟩ := slice?_of_keepsSlice hwf h hindices hr
    rw [hslice, List.getElem?_eq_getElem hlt]
    rfl

theorem exists_indices_of_mem_contexts {ctx : Context} (h : ctx ∈ space.contexts) :
    ∃ indices, List.Forall₂ (· < ·) indices space.sizes ∧ space.contextAt indices = ctx := by
  obtain ⟨indices, hindices, rfl⟩ := List.mem_map.1 h
  exact ⟨indices, Odometer.mem_all.1 hindices, rfl⟩

/-- In the contexts of a subject its rendering records nothing, and it does not fail internally, unless
a function does. -/
theorem render_covered {functions : Registry} {d : SuiteDefinition} {suite : Suite}
    (hsuite : (Suite.compile functions d).result = .ok suite) (hs : s ∈ suite.subjects)
    (config : Config) (hspace : s.space config.prune = .ok space) {ctx : Context}
    (hctx : ctx ∈ space.contexts) (ev : Evaluator) :
    (s.render config ev ctx).log = [] ∧
      (ev.functions.FailsOnly (fun f => ¬f.IsInternal) →
        ∀ f, (s.render config ev ctx).result = .error f → ¬f.failure.IsInternal) := by
  obtain ⟨indices, hindices, rfl⟩ := exists_indices_of_mem_contexts hctx
  have hselects := contextAt_selects (Suite.compile_wellFormed hsuite s hs) hspace hindices
  have hclosed : (space.contextAt indices).symbols.ClosedUnder (s.KeepsName config.prune)
      (s.KeepsSlice config.prune) := contextAt_symbols hspace indices ▸ s.closedUnder_kept config.prune
  have hrefs := s.refersWithin_kept config.prune
  have hquiet : (s.render config ev (space.contextAt indices)).Quiet fun _ => False :=
    render_quiet (fun _ => False.elim) (fun _ _ _ _ _ => not_false) hselects hclosed hrefs
  exact ⟨hquiet.log, fun hfunctions =>
    (render_quiet (fun _ hf => hf) hfunctions hselects hclosed hrefs).result⟩

theorem render_covered_prunableSuite : ∃ suite s space ctx,
    (Suite.compile Library.standard prunableSuite).result = .ok suite ∧ s ∈ suite.subjects ∧
      s.space true = .ok space ∧ ctx ∈ space.contexts ∧
      Library.standard.FailsOnly (fun f => ¬f.IsInternal) ∧
      (s.render {} (s.evaluator Library.standard {}) ctx).log = [] ∧
      ∀ f, (s.render {} (s.evaluator Library.standard {}) ctx).result = .error f →
        ¬f.failure.IsInternal := by
  have hrun : ((Suite.compile Library.standard prunableSuite).result.toOption.bind
      (·.subjects.head?)).bind
        (fun s => (s.space true).toOption.map fun space => space.contexts.length) = some 4 := by
    decide +kernel
  simp only [Option.bind_eq_some_iff, Option.map_eq_some_iff, Except.toOption_eq_some] at hrun
  obtain ⟨s, ⟨suite, hsuite, hhead⟩, space, hspace, hlength⟩ := hrun
  have hs : s ∈ suite.subjects := List.mem_of_head? hhead
  obtain ⟨ctx, hctx⟩ := List.exists_mem_of_length_pos (show 0 < space.contexts.length by omega)
  have hfunctions : Library.standard.FailsOnly (fun f => ¬f.IsInternal) :=
    Library.standard_failsOnly.mono fun _ => Failure.OfArguments.not_isInternal
  obtain ⟨hlog, hresult⟩ :=
    render_covered hsuite hs { prune := true } hspace hctx (s.evaluator Library.standard {})
  exact ⟨suite, s, space, ctx, hsuite, hs, hspace, hctx, hfunctions, hlog, hresult hfunctions⟩

end Variorum.Subject
