import Variorum.Proofs.Evaluation.Log
import Variorum.Proofs.Suite.Coverage

/-!
# First values

Where nothing is selected, the first value of each parameter, the first body of each macro and the first
value of each slice are taken. That is what the first context of a subject selects, so that its templates
come to the same there.
-/

namespace Variorum

/-! ## The first context -/

theorem Odometer.head?_tuples {sizes : List Nat} (h : 0 ∉ sizes) :
    (tuples sizes).head? = some (sizes.map fun _ => 0) := by
  have hrun := runs_tuples h
  generalize tuples sizes = shown at hrun
  cases hrun with
  | turn _ _ => rfl

theorem ContextSpace.head?_contexts {space : ContextSpace} {first : Context}
    (h : space.contexts.head? = some first) :
    0 ∉ space.sizes ∧ space.contextAt (space.sizes.map fun _ => 0) = first := by
  rw [contexts, Odometer.all_eq_tuples, List.head?_map] at h
  have hpos : 0 ∉ space.sizes := fun hzero => by
    rw [Odometer.tuples_eq_nil hzero] at h
    cases h
  rw [Odometer.head?_tuples hpos] at h
  exact ⟨hpos, Option.some.inj h⟩

namespace Subject

variable {s : Subject} {space : ContextSpace}

/-- The first context and the one that selects nothing cannot be told apart. -/
theorem first_agrees_root (hwf : s.symbols.WellFormed) (hspace : s.space false = .ok space)
    (hpos : 0 ∉ space.sizes) :
    (space.contextAt (space.sizes.map fun _ => 0)).Agrees (s.KeepsName false) (s.KeepsSlice false) []
      (.root s.symbols) := by
  have hbelow := Odometer.mem_tuples.1 (List.mem_of_head? (Odometer.head?_tuples hpos))
  have hsymbols := contextAt_symbols hspace (space.sizes.map fun _ => 0)
  have hzero : ∀ index ∈ space.sizes.map (fun _ => 0), index = 0 := by simp
  constructor
  · rw [Context.path, ContextSpace.contextAt_symbols.2]
    rfl
  · rintro name (hname | hname)
    · cases hp : s.symbols.parameter? name with
      | none =>
          simp only [Context.meaning, lookup?_of_undeclared hspace hp, hsymbols]
          rfl
      | some p =>
          obtain ⟨hmem, rfl⟩ := SymbolTable.mem_of_parameter? hp
          obtain ⟨index, hindex, -, hlookup⟩ := lookup?_of_mem hwf hspace hbelow hmem hname
          obtain ⟨v, vs, hvalues⟩ := List.exists_cons_of_ne_nil (hwf.values_ne_nil p hmem)
          rw [hzero index hindex, hvalues] at hlookup
          have hroot : (Context.root s.symbols).lookup? p.name = none := rfl
          have hparameter : (Context.root s.symbols).symbols.parameter? p.name = some p := hp
          simp only [Context.meaning, hlookup, hroot, hparameter, hvalues, List.getElem?_cons_zero]
    · cases hname
  · intro name hname
    cases hname
  · intro name _
    rw [hsymbols]
    rfl
  · intro name hname m hm
    rw [hsymbols] at hm
    obtain ⟨hmem, rfl⟩ := SymbolTable.mem_of_macro? hm
    obtain ⟨index, hindex, hlt, hbody⟩ := body?_of_mem hwf hspace hbelow hmem hname
    obtain ⟨body, bodies, hbodies⟩ := List.exists_cons_of_length_pos (Nat.zero_lt_of_lt hlt)
    have hroot : (Context.root s.symbols).body? m.name = none := rfl
    rw [hzero index hindex] at hbody
    simp only [Context.chosenBody, hbody, hroot, hbodies, List.getElem?_cons_zero]
  · intro r hr
    obtain ⟨values, hvalues, index, hindex, hlt, hslice⟩ := slice?_of_keepsSlice hwf hspace hbelow hr
    obtain ⟨v, vs, rfl⟩ := List.exists_cons_of_length_pos (Nat.zero_lt_of_lt hlt)
    have hroot : (Context.root s.symbols).slice? r.key = none := rfl
    have hcandidates : r.candidates (Context.root s.symbols).symbols = .ok (v :: vs) := hvalues
    rw [hzero index hindex] at hslice
    simp only [Context.sliceValue, hslice, hroot, hcandidates, List.getElem?_cons_zero]

/-- Without any selection the templates of a subject come to the same as in its first context. There
nothing is recorded, here at most that a value was chosen without a selection. -/
theorem render_root_eq_first {functions : Registry} {d : SuiteDefinition} {suite : Suite}
    (hsuite : (Suite.compile functions d).result = .ok suite) (hs : s ∈ suite.subjects)
    (hspace : s.space false = .ok space) {first : Context}
    (hfirst : space.contexts.head? = some first) (ev : Evaluator) {t : Template}
    (ht : t ∈ s.templates) :
    (ev.render (.root s.symbols) t).result = (ev.render first t).result ∧
      (ev.render first t).log = [] ∧
      ∀ diagnostic ∈ (ev.render (.root s.symbols) t).log,
        diagnostic.severity = .warning ∧ diagnostic.code = Diagnostic.multipleValues := by
  obtain ⟨hpos, rfl⟩ := ContextSpace.head?_contexts hfirst
  have hwf := Suite.compile_wellFormed hsuite s hs
  have hsymbols := contextAt_symbols hspace (space.sizes.map fun _ => 0)
  have hclosed := s.closedUnder_kept false
  rw [← hsymbols] at hclosed
  have hrefs := (s.refersWithin_kept false).mono (nodes_subset ht)
  have hbelow := Odometer.mem_tuples.1 (List.mem_of_head? (Odometer.head?_tuples hpos))
  have hquiet : (ev.render (space.contextAt (space.sizes.map fun _ => 0)) t).Quiet fun _ => False :=
    Evaluator.render_quiet (fun _ => False.elim) (fun _ _ _ _ _ => not_false)
      (contextAt_selects hwf hspace hbelow) hclosed hrefs
  refine ⟨(Evaluator.render_agrees (first_agrees_root hwf hspace hpos) hclosed hrefs).symm,
    hquiet.log, fun diagnostic hd => ?_⟩
  obtain ⟨hseverity, hcode, -⟩ := Evaluator.render_records diagnostic hd
  exact ⟨hseverity, hcode⟩

theorem render_root_eq_first_prunableSuite : ∃ suite s space first,
    (Suite.compile {} prunableSuite).result = .ok suite ∧ s ∈ suite.subjects ∧
      s.space false = .ok space ∧ space.contexts.head? = some first ∧ s.code ∈ s.templates ∧
      ((s.evaluator {} {}).render (.root s.symbols) s.code).result = .ok "1" ∧
      ((s.evaluator {} {}).render first s.code).result = .ok "1" ∧
      ((s.evaluator {} {}).render (.root s.symbols) s.code).log.length = 2 ∧
      ((s.evaluator {} {}).render first s.code).log = [] := by
  have hrun : ((Suite.compile {} prunableSuite).result.toOption.bind (·.subjects.head?)).bind
      (fun s => (s.space false).toOption.bind fun space => space.contexts.head?.map fun _ =>
        (((s.evaluator {} {}).render (.root s.symbols) s.code).result.toOption,
          ((s.evaluator {} {}).render (.root s.symbols) s.code).log.length)) =
      some (some "1", 2) := by
    decide +kernel
  simp only [Option.bind_eq_some_iff, Option.map_eq_some_iff, Except.toOption_eq_some,
    Prod.mk.injEq] at hrun
  obtain ⟨s, ⟨suite, hsuite, hhead⟩, space, hspace, first, hfirst, hroot, hlog⟩ := hrun
  have hs : s ∈ suite.subjects := List.mem_of_head? hhead
  have hcode : s.code ∈ s.templates := List.mem_cons_of_mem _ List.mem_cons_self
  obtain ⟨hsame, hquiet, -⟩ :=
    render_root_eq_first hsuite hs hspace hfirst (s.evaluator {} {}) hcode
  exact ⟨suite, s, space, first, hsuite, hs, hspace, hfirst, hcode, hroot, hsame.symm.trans hroot,
    hlog, hquiet⟩

end Subject

end Variorum
