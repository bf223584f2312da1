import Variorum.Proofs.Suite.Compilation

/-!
# Compiled tables are well-formed

Every way to build a symbol table keeps its names distinct and gives each parameter a value.
-/

namespace Variorum

/-- No name is declared twice, and every parameter has a value. -/
structure SymbolTable.WellFormed (t : SymbolTable) : Prop where
  parameters_nodup : (t.parameters.map (·.name)).Nodup
  macros_nodup : (t.macros.map (·.name)).Nodup
  disjoint : ∀ p ∈ t.parameters, ∀ m ∈ t.macros, p.name ≠ m.name
  values_ne_nil : ∀ p ∈ t.parameters, p.values ≠ []

namespace SymbolTable

variable {t t' : SymbolTable} {p : Parameter} {m : Macro} {name : String}

/-! ## Look-ups -/

theorem mem_of_parameter? (h : t.parameter? name = some p) : p ∈ t.parameters ∧ p.name = name :=
  ⟨List.mem_of_find?_eq_some h, by simpa using List.find?_some h⟩

theorem mem_of_macro? (h : t.macro? name = some m) : m ∈ t.macros ∧ m.name = name :=
  ⟨List.mem_of_find?_eq_some h, by simpa using List.find?_some h⟩

theorem parameter?_eq_none : t.parameter? name = none ↔ ∀ p ∈ t.parameters, p.name ≠ name := by
  simp [parameter?]

theorem macro?_eq_none : t.macro? name = none ↔ ∀ m ∈ t.macros, m.name ≠ name := by
  simp [macro?]

/-- Among distinct names a member is found by its own. -/
theorem find?_name {α : Type} {nameOf : α → String} {a : α} :
    (as : List α) → (as.map nameOf).Nodup → a ∈ as → as.find? (nameOf · = nameOf a) = some a
  | [], _, h => by cases h
  | b :: as, hnodup, h => by
      rw [List.map_cons, List.nodup_cons] at hnodup
      rcases List.mem_cons.1 h with rfl | h
      · simp
      · have hne : nameOf b ≠ nameOf a := fun he => hnodup.1 (he ▸ List.mem_map_of_mem h)
        simpa [hne] using find?_name as hnodup.2 h

theorem WellFormed.parameter?_of_mem (h : t.WellFormed) (hp : p ∈ t.parameters) :
    t.parameter? p.name = some p :=
  find?_name t.parameters h.parameters_nodup hp

theorem WellFormed.macro?_of_mem (h : t.WellFormed) (hm : m ∈ t.macros) :
    t.macro? m.name = some m :=
  find?_name t.macros h.macros_nodup hm

theorem WellFormed.parameter?_eq_some (h : t.WellFormed) :
    t.parameter? name = some p ↔ p ∈ t.parameters ∧ p.name = name := by
  refine ⟨mem_of_parameter?, ?_⟩
  rintro ⟨hp, rfl⟩
  exact h.parameter?_of_mem hp

theorem WellFormed.macro?_eq_some (h : t.WellFormed) :
    t.macro? name = some m ↔ m ∈ t.macros ∧ m.name = name := by
  refine ⟨mem_of_macro?, ?_⟩
  rintro ⟨hm, rfl⟩
  exact h.macro?_of_mem hm

/-! ## Declarations -/

theorem wellFormed_empty : empty.WellFormed :=
  ⟨List.nodup_nil, List.nodup_nil, List.forall_mem_nil _, List.forall_mem_nil _⟩

theorem not_declares (h : ¬t.declares name = true) :
    (∀ p ∈ t.parameters, p.name ≠ name) ∧ ∀ m ∈ t.macros, m.name ≠ name := by
  simpa [declares, parameter?_eq_none, macro?_eq_none] using h

theorem declares_eq_false :
    t.declares name = false ↔ t.parameter? name = none ∧ t.macro? name = none := by
  simp [declares]

theorem addParameter_eq_ok : t.addParameter p = .ok t' ↔
    (p.values ≠ [] ∧ t.parameter? p.name = none ∧ t.macro? p.name = none) ∧
      { t with parameters := t.parameters ++ [p] } = t' := by
  rw [← declares_eq_false]
  unfold SymbolTable.addParameter
  by_cases hvalues : p.values = []
  · simp [hvalues]
  · by_cases hfree : t.declares p.name = true
    · simp [hvalues, hfree]
    · simp [hvalues, hfree]

theorem addMacro_eq_ok : t.addMacro m = .ok t' ↔
    (t.parameter? m.name = none ∧ t.macro? m.name = none) ∧
      { t with macros := t.macros ++ [m] } = t' := by
  rw [← declares_eq_false]
  unfold SymbolTable.addMacro
  by_cases hfree : t.declares m.name = true
  · simp [hfree]
  · simp [hfree]

theorem WellFormed.addParameter (h : t.WellFormed) (he : t.addParameter p = .ok t') :
    t'.WellFormed := by
  obtain ⟨⟨hvalues, hp, hm⟩, rfl⟩ := addParameter_eq_ok.1 he
  rw [parameter?_eq_none] at hp
  rw [macro?_eq_none] at hm
  refine ⟨?_, h.macros_nodup, ?_, ?_⟩
  · rw [List.map_append, List.nodup_append]
    refine ⟨h.parameters_nodup, by simp, ?_⟩
    intro a ha b hb
    obtain ⟨q, hq, rfl⟩ := List.mem_map.1 ha
    simp only [List.map_cons, List.map_nil, List.mem_singleton] at hb
    exact hb ▸ hp q hq
  · intro q hq k hk
    rcases List.mem_append.1 hq with hq | hq
    · exact h.disjoint q hq k hk
    · rw [List.mem_singleton.1 hq]
      exact (hm k hk).symm
  · intro q hq
    rcases List.mem_append.1 hq with hq | hq
    · exact h.values_ne_nil q hq
    · rwa [List.mem_singleton.1 hq]

theorem WellFormed.addMacro (h : t.WellFormed) (he : t.addMacro m = .ok t') : t'.WellFormed := by
  obtain ⟨⟨hp, hm⟩, rfl⟩ := addMacro_eq_ok.1 he
  rw [parameter?_eq_none] at hp
  rw [macro?_eq_none] at hm
  refine ⟨h.parameters_nodup, ?_, ?_, h.values_ne_nil⟩
  · rw [List.map_append, List.nodup_append]
    refine ⟨h.macros_nodup, by simp, ?_⟩
    intro a ha b hb
    obtain ⟨k, hk, rfl⟩ := List.mem_map.1 ha
    simp only [List.map_cons, List.map_nil, List.mem_singleton] at hb
    exact hb ▸ hm k hk
  · intro q hq k hk
    rcases List.mem_append.1 hk with hk | hk
    · exact h.disjoint q hq k hk
    · rw [List.mem_singleton.1 hk]
      exact hp q hq

theorem WellFormed.ofDefinitions {parameters : List Parameter} {macros : List MacroDefinition}
    (he : SymbolTable.ofDefinitions parameters macros = .ok t) : t.WellFormed := by
  obtain ⟨u, hu, he⟩ := Except.bind_eq_ok.1 he
  have hparams : u.WellFormed :=
    Except.foldlM_invariant (fun _ _ _ h he => h.addParameter he) wellFormed_empty hu
  refine Except.foldlM_invariant (fun v d v' h he => ?_) hparams he
  obtain ⟨m, _, he⟩ := Except.bind_eq_ok.1 he
  exact h.addMacro he

/-! ## Unions -/

theorem subset_union {α : Type} [BEq α] (xs ys : List α) : xs ⊆ union xs ys := by
  unfold union
  induction ys generalizing xs with
  | nil => exact fun _ => id
  | cons y ys ih =>
      refine fun x hx => ih _ ?_
      dsimp only
      split
      · exact hx
      · exact List.mem_append_left _ hx

theorem WellFormed.mergeParameter (h : t.WellFormed) (he : t.mergeParameter p = .ok t') :
    t'.WellFormed := by
  unfold SymbolTable.mergeParameter at he
  split at he
  · cases he
  · split at he
    · cases he
      -- Only values change, so that the names stay what they are.
      have hname : ∀ q : Parameter,
          (if q.name = p.name then { q with values := union q.values p.values } else q).name =
            q.name := by
        intro q
        split <;> rfl
      refine ⟨?_, h.macros_nodup, ?_, ?_⟩
      · simpa only [List.map_map, Function.comp_def, hname] using h.parameters_nodup
      · intro _ hq k hk
        obtain ⟨q, hmem, rfl⟩ := List.mem_map.1 hq
        rw [hname]
        exact h.disjoint q hmem k hk
      · intro _ hq
        obtain ⟨q, hmem, rfl⟩ := List.mem_map.1 hq
        split
        · intro hnil
          exact h.values_ne_nil q hmem (List.subset_nil.1 (hnil ▸ subset_union q.values p.values))
        · exact h.values_ne_nil q hmem
    · exact h.addParameter he

theorem WellFormed.mergeMacro (h : t.WellFormed) (he : t.mergeMacro m = .ok t') :
    t'.WellFormed := by
  unfold SymbolTable.mergeMacro at he
  split at he
  · cases he
  · split at he
    · exact h.addMacro he
    · split at he
      · cases he
      · cases he
        have hname : ∀ k : Macro,
            (if k.name = m.name then { k with bodies := union k.bodies m.bodies } else k).name =
              k.name := by
          intro k
          split <;> rfl
        refine ⟨h.parameters_nodup, ?_, ?_, h.values_ne_nil⟩
        · simpa only [List.map_map, Function.comp_def, hname] using h.macros_nodup
        · intro q hq _ hk
          obtain ⟨k, hmem, rfl⟩ := List.mem_map.1 hk
          rw [hname]
          exact h.disjoint q hq k hmem

theorem WellFormed.merge {other : SymbolTable} (h : t.WellFormed) (he : t.merge other = .ok t') :
    t'.WellFormed := by
  obtain ⟨u, hu, he⟩ := Except.bind_eq_ok.1 he
  exact Except.foldlM_invariant (fun _ _ _ h he => h.mergeMacro he)
    (Except.foldlM_invariant (fun _ _ _ h he => h.mergeParameter he) h hu) he

end SymbolTable

/-! ## Compilation -/

theorem Subject.compile_wellFormed {shared : SymbolTable} {d : SubjectDefinition} {s : Subject}
    (h : shared.WellFormed) (he : Subject.compile shared d = .ok s) : s.symbols.WellFormed := by
  obtain ⟨own, _, he⟩ := Except.bind_eq_ok.1 he
  obtain ⟨symbols, hsymbols, he⟩ := Except.bind_eq_ok.1 he
  obtain ⟨outcomes, _, he⟩ := Except.bind_eq_ok.1 he
  obtain ⟨name, _, he⟩ := Except.bind_eq_ok.1 he
  obtain ⟨code, _, he⟩ := Except.bind_eq_ok.1 he
  cases he
  exact h.merge hsymbols

theorem Suite.compileSubjects_wellFormed {functions : Registry} {shared : SymbolTable}
    (h : shared.WellFormed) {ds : List SubjectDefinition} {subjects : List Subject}
    (he : (compileSubjects functions shared ds).result = .ok subjects) :
    ∀ s ∈ subjects, s.symbols.WellFormed := by
  induction ds generalizing subjects with
  | nil =>
      cases he
      exact fun s hs => by cases hs
  | cons d ds ih =>
      rw [compileSubjects, Report.result_bind] at he
      obtain ⟨s, hs, he⟩ := Except.bind_eq_ok.1 he
      rw [Report.result_bind] at he
      obtain ⟨rest, hrest, he⟩ := Except.bind_eq_ok.1 he
      cases he
      unfold Subject.compileWithWarnings at hs
      split at hs
      · rename_i hcompile
        cases hs
        exact List.forall_mem_cons.2 ⟨Subject.compile_wellFormed h hcompile, ih hrest⟩
      · cases hs

/-- The tables of all subjects of a compiled suite are well-formed. -/
theorem Suite.compile_wellFormed {functions : Registry} {d : SuiteDefinition} {suite : Suite}
    (he : (Suite.compile functions d).result = .ok suite) :
    ∀ s ∈ suite.subjects, s.symbols.WellFormed := by
  rw [Suite.compile, Report.result_bind] at he
  obtain ⟨shared, hshared, he⟩ := Except.bind_eq_ok.1 he
  rw [Report.result_bind] at he
  obtain ⟨subjects, hsubjects, he⟩ := Except.bind_eq_ok.1 he
  cases he
  exact compileSubjects_wellFormed (.ofDefinitions hshared) hsubjects

end Variorum
