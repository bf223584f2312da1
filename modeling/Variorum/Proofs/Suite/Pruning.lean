import Variorum.Proofs.Evaluation.Agreement
import Variorum.Proofs.Product.Axes
import Variorum.Proofs.Product.Reachability
import Variorum.Proofs.Suite.Resolution

/-!
# Pruning

The axes that pruning drops are never read, so that a subject is rendered alike with and without
them. But a dropped axis on which there is nothing to select has kept the full product empty, and
without it the product is not.
-/

namespace Variorum

/-! ## Indices of axes -/

namespace ContextSpace

variable {axes : List Axis} {indices : List Nat} {a : Axis}

theorem exists_index (h : List.Forall₂ (· < ·) indices (axes.map Axis.size)) (ha : a ∈ axes) :
    ∃ index, (a, index) ∈ axes.zip indices ∧ index < a.size := by
  induction axes generalizing indices with
  | nil => cases ha
  | cons b axes ih =>
      cases h with
      | cons hindex h =>
          rcases List.mem_cons.1 ha with rfl | ha
          · exact ⟨_, List.mem_cons_self, hindex⟩
          · obtain ⟨index, hmem, hlt⟩ := ih h ha
            exact ⟨index, List.mem_cons_of_mem _ hmem, hlt⟩

theorem index_unique (hnodup : axes.Nodup) {i j : Nat} (hi : (a, i) ∈ axes.zip indices)
    (hj : (a, j) ∈ axes.zip indices) : i = j := by
  induction axes generalizing indices with
  | nil => cases hi
  | cons b axes ih =>
      cases indices with
      | nil => cases hi
      | cons index indices =>
          rw [List.nodup_cons] at hnodup
          rw [List.zip_cons_cons, List.mem_cons, Prod.mk.injEq] at hi hj
          rcases hi with ⟨rfl, rfl⟩ | hi
          · rcases hj with ⟨-, rfl⟩ | hj
            · rfl
            · exact absurd (List.of_mem_zip hj).1 hnodup.1
          · rcases hj with ⟨rfl, rfl⟩ | hj
            · exact absurd (List.of_mem_zip hi).1 hnodup.1
            · exact ih hnodup.2 hi hj

/-- An index for each axis makes indices for all of them. -/
theorem exists_indices {P : Axis → Nat → Prop} (h : ∀ a ∈ axes, ∃ index < a.size, P a index) :
    ∃ indices, List.Forall₂ (· < ·) indices (axes.map Axis.size) ∧
      ∀ p ∈ axes.zip indices, P p.1 p.2 := by
  induction axes with
  | nil => exact ⟨[], .nil, List.forall_mem_nil _⟩
  | cons a axes ih =>
      obtain ⟨index, hlt, hindex⟩ := h a List.mem_cons_self
      obtain ⟨indices, hbelow, hindices⟩ := ih fun b hb => h b (List.mem_cons_of_mem a hb)
      exact ⟨index :: indices, .cons hlt hbelow, List.forall_mem_cons.2 ⟨hindex, hindices⟩⟩

theorem length_of_below (h : List.Forall₂ (· < ·) indices (axes.map Axis.size)) :
    indices.length = axes.length := by
  rw [h.length_eq, List.length_map]

end ContextSpace

namespace Subject

variable {s : Subject} {full pruned : ContextSpace} {is js : List Nat}

/-! ## Agreement with the pruned context -/

/-- The slices that are axes with pruning. -/
def KeptSlice (s : Subject) (r : SliceRef) : Prop :=
  ∃ e ∈ s.keptNodes true, e.slice? = some r

theorem axes_nodup (hwf : s.symbols.WellFormed) {prune : Bool} {space : ContextSpace}
    (h : s.space prune = .ok space) : space.axes.Nodup :=
  (slots_nodup hwf h).of_map _

theorem axes_subset (hfull : s.space false = .ok full) (hpruned : s.space true = .ok pruned) :
    pruned.axes ⊆ full.axes :=
  fun _ ha => (mem_axes hfull).2 ((mem_axes hpruned).1 ha).full

/-- Indices for the axes of both spaces that are the same on every kept axis. -/
structure SameIndices (s : Subject) (full : ContextSpace) (is : List Nat) (pruned : ContextSpace)
    (js : List Nat) : Prop where
  wellFormed : s.symbols.WellFormed
  full_space : s.space false = .ok full
  pruned_space : s.space true = .ok pruned
  full_length : is.length = full.axes.length
  pruned_length : js.length = pruned.axes.length
  subset : pruned.axes.zip js ⊆ full.axes.zip is

namespace SameIndices

variable (h : s.SameIndices full is pruned js)
include h

/-- What is selected on the kept axes is the same in both contexts. -/
theorem selected? (slot : Slot)
    (hkept : ∀ a, s.HasAxis false a → a.slot = slot → s.HasAxis true a) :
    (full.contextAt is).selected? slot = (pruned.contextAt js).selected? slot := by
  by_cases hslot : slot ∈ pruned.axes.map Axis.slot
  · obtain ⟨a, ha, rfl⟩ := List.mem_map.1 hslot
    have hfst : (pruned.axes.zip js).map Prod.fst = pruned.axes :=
      List.map_fst_zip (Nat.le_of_eq h.pruned_length.symm)
    rw [← hfst] at ha
    obtain ⟨⟨a, index⟩, hindex, rfl⟩ := List.mem_map.1 ha
    rw [ContextSpace.selected?_contextAt (slots_nodup h.wellFormed h.full_space) h.full_length
        (h.subset hindex),
      ContextSpace.selected?_contextAt (slots_nodup h.wellFormed h.pruned_space) h.pruned_length
        hindex]
  · have hfullSlot : slot ∉ full.axes.map Axis.slot := by
      intro hmem
      obtain ⟨a, ha, he⟩ := List.mem_map.1 hmem
      have hkeptAxis := hkept a ((mem_axes h.full_space).1 ha) he
      exact hslot (he ▸ List.mem_map_of_mem ((mem_axes h.pruned_space).2 hkeptAxis))
    rw [ContextSpace.selected?_contextAt_of_not_mem hslot,
      ContextSpace.selected?_contextAt_of_not_mem hfullSlot]

theorem symbols : (full.contextAt is).symbols = (pruned.contextAt js).symbols := by
  rw [ContextSpace.contextAt_symbols.1, ContextSpace.contextAt_symbols.1,
    space_symbols h.full_space, space_symbols h.pruned_space]

theorem lookup? {name : String} (hname : name ∈ References.collect s) :
    (full.contextAt is).lookup? name = (pruned.contextAt js).lookup? name := by
  have hslot := h.selected? (.parameter name) fun a ha he => by
    rcases ha with ⟨hp, -⟩ | ⟨-, -⟩ | ⟨-, -, -⟩
    · cases he
      exact .parameter hp (isKept_pruned.2 hname)
    · cases he
    · cases he
  exact Option.map_injective (fun _ _ => Sum.inl.inj) hslot

theorem body? {name : String} (hname : name ∈ References.collect s) :
    (full.contextAt is).body? name = (pruned.contextAt js).body? name := by
  have hslot := h.selected? (.bodies name) fun a ha he => by
    rcases ha with ⟨-, -⟩ | ⟨hm, -⟩ | ⟨-, -, -⟩
    · cases he
    · cases he
      exact .bodies hm (isKept_pruned.2 hname)
    · cases he
  exact Option.map_injective (fun _ _ => Sum.inr.inj) hslot

theorem slice? {r : SliceRef} (hr : s.KeptSlice r) :
    (full.contextAt is).slice? r.key = (pruned.contextAt js).slice? r.key := by
  obtain ⟨e, hmem, hr⟩ := hr
  have hslot := h.selected? (.slice r.key) fun a ha he => by
    rcases ha with ⟨-, -⟩ | ⟨-, -⟩ | ⟨-, -, hvalues⟩
    · cases he
    · cases he
    · obtain rfl := SliceRef.key_injective (Slot.slice.inj he)
      exact .slice hmem hr hvalues
  exact Option.map_injective (fun _ _ => Sum.inl.inj) hslot

theorem agrees :
    (full.contextAt is).Agrees (· ∈ References.collect s) s.KeptSlice [] (pruned.contextAt js) := by
  constructor
  · simp only [Context.path, ContextSpace.contextAt_symbols.2]
  · rintro name (hname | hname)
    · simp only [Context.meaning, h.lookup? hname, h.symbols]
    · cases hname
  · intro name hname
    cases hname
  · intro name _
    rw [h.symbols]
  · intro name hname m hm
    obtain rfl := (SymbolTable.mem_of_macro? hm).2
    simp only [Context.chosenBody, h.body? hname]
  · intro r hr
    simp only [Context.sliceValue, h.slice? hr, h.symbols]

end SameIndices

theorem closedUnder_collect (s : Subject) :
    s.symbols.ClosedUnder (· ∈ References.collect s) s.KeptSlice := by
  intro name hname m hm body hbody e he
  obtain ⟨hmem, rfl⟩ := SymbolTable.mem_of_macro? hm
  refine ⟨fun x hx => ?_, fun r hr => ⟨e, List.mem_append_right _ ?_, hr⟩⟩
  · exact References.collect_closed s _ hname m hm x ⟨e, List.mem_flatMap.2 ⟨body, hbody, he⟩, hx⟩
  · refine List.mem_flatMap.2 ⟨body, List.mem_flatMap.2 ⟨m, ?_, hbody⟩, he⟩
    exact List.mem_filter.2 ⟨hmem, isKept_pruned.2 hname⟩

theorem refersWithin_collect (s : Subject) :
    RefersWithin (· ∈ References.collect s) s.KeptSlice [] s.nodes :=
  fun e he => ⟨fun _ hname => References.mem_collect_of_mentions ⟨e, he, hname⟩,
    fun _ hr => ⟨e, List.mem_append_left _ he, hr⟩⟩

/-- A subject is rendered alike in contexts that select alike on the kept axes. -/
theorem SameIndices.render (h : s.SameIndices full is pruned js) (config : Config) (ev : Evaluator) :
    (s.render config ev (full.contextAt is)).result =
      (s.render config ev (pruned.contextAt js)).result := by
  refine render_agrees h.agrees ?_ s.refersWithin_collect
  rw [ContextSpace.contextAt_symbols.1, space_symbols h.full_space]
  exact s.closedUnder_collect

theorem exists_pruned_indices (hwf : s.symbols.WellFormed) (hfull : s.space false = .ok full)
    (hpruned : s.space true = .ok pruned) (his : List.Forall₂ (· < ·) is full.sizes) :
    ∃ js, List.Forall₂ (· < ·) js pruned.sizes ∧ s.SameIndices full is pruned js := by
  have hindex : ∀ a ∈ pruned.axes, ∃ index < a.size, (a, index) ∈ full.axes.zip is := by
    intro a ha
    obtain ⟨index, hmem, hlt⟩ := ContextSpace.exists_index his (axes_subset hfull hpruned ha)
    exact ⟨index, hlt, hmem⟩
  obtain ⟨js, hjs, hmem⟩ := ContextSpace.exists_indices hindex
  have hislen := ContextSpace.length_of_below his
  exact ⟨js, hjs, hwf, hfull, hpruned, hislen, ContextSpace.length_of_below hjs, hmem⟩

/-- Indices of the pruned space are determined by what they select on its axes. -/
theorem SameIndices.unique (h : s.SameIndices full is pruned js) {js' : List Nat}
    (h' : s.SameIndices full is pruned js') : js' = js := by
  refine List.ext_getElem (h'.pruned_length.trans h.pruned_length.symm) fun k hk' hk => ?_
  have hmem : ∀ xs : List Nat, ∀ hx : k < xs.length,
      pruned.axes.zip xs ⊆ full.axes.zip is → ∀ ha : k < pruned.axes.length,
        (pruned.axes[k], xs[k]) ∈ full.axes.zip is := fun xs hx hsub ha =>
    hsub (List.mem_iff_getElem.2 ⟨k, by rw [List.length_zip]; omega, List.getElem_zip⟩)
  exact ContextSpace.index_unique (axes_nodup h.wellFormed h.full_space)
    (hmem js' hk' h'.subset (h.pruned_length ▸ hk)) (hmem js hk h.subset (h.pruned_length ▸ hk))

/-- In every context of the full space a compiled subject comes to the same as in the context of the
pruned space that has the same index on every kept axis. -/
theorem render_eq_pruned {functions : Registry} {d : SuiteDefinition} {suite : Suite}
    (hsuite : (Suite.compile functions d).result = .ok suite) (hs : s ∈ suite.subjects)
    (hfull : s.space false = .ok full) (hpruned : s.space true = .ok pruned)
    (his : List.Forall₂ (· < ·) is full.sizes) (config : Config) (ev : Evaluator) :
    ∃ js, List.Forall₂ (· < ·) js pruned.sizes ∧ pruned.axes.zip js ⊆ full.axes.zip is ∧
      (∀ js', js'.length = pruned.axes.length → pruned.axes.zip js' ⊆ full.axes.zip is → js' = js) ∧
      (s.render config ev (full.contextAt is)).result =
        (s.render config ev (pruned.contextAt js)).result := by
  obtain ⟨js, hjs, hsame⟩ :=
    exists_pruned_indices (Suite.compile_wellFormed hsuite s hs) hfull hpruned his
  refine ⟨js, hjs, hsame.subset, fun js' hlen hsub => ?_, hsame.render config ev⟩
  exact hsame.unique { hsame with pruned_length := hlen, subset := hsub }

/-- A subject whose parameter `y` is not referenced. -/
def prunableSuite : SuiteDefinition where
  id := "suite"
  subjects := [{
    id := "subject"
    name := "name"
    code := "$\x7bm(x)\x7d"
    parameters := [⟨"x", [.integer 1, .integer 2]⟩, ⟨"y", [.text "a", .text "b"]⟩]
    macros := [⟨"m(a)", ["$\x7ba\x7d", "$\x7bx[0:1]\x7d"]⟩] }]

theorem render_eq_pruned_prunableSuite : ∃ suite s full pruned,
    (Suite.compile {} prunableSuite).result = .ok suite ∧ s ∈ suite.subjects ∧
      s.space false = .ok full ∧ s.space true = .ok pruned ∧
      List.Forall₂ (· < ·) [1, 0, 1, 0] full.sizes ∧
      ∃ js, List.Forall₂ (· < ·) js pruned.sizes ∧
        (s.render {} (s.evaluator {} {}) (full.contextAt [1, 0, 1, 0])).result =
          (s.render {} (s.evaluator {} {}) (pruned.contextAt js)).result := by
  have hspaces : ((Suite.compile {} prunableSuite).result.toOption.bind (·.subjects.head?)).bind
      (fun s => (s.space false).toOption.bind fun full =>
        (s.space true).toOption.map fun pruned => (full.sizes, pruned.sizes)) =
      some ([2, 2, 2, 1], [2, 2, 1]) := by
    decide +kernel
  simp only [Option.bind_eq_some_iff, Option.map_eq_some_iff, Except.toOption_eq_some,
    Prod.mk.injEq] at hspaces
  obtain ⟨s, ⟨suite, hsuite, hhead⟩, full, hfull, pruned, hpruned, hsizes, -⟩ := hspaces
  have hs : s ∈ suite.subjects := List.mem_of_head? hhead
  have his : List.Forall₂ (· < ·) [1, 0, 1, 0] full.sizes := by
    rw [hsizes]
    decide
  obtain ⟨js, hjs, -, -, hrender⟩ :=
    render_eq_pruned hsuite hs hfull hpruned his {} (s.evaluator {} {})
  exact ⟨suite, s, full, pruned, hsuite, hs, hfull, hpruned, his, js, hjs, hrender⟩

/-! ## Axes with nothing to select -/

/-- Pruning drops an axis on which there is nothing to select: the one of a macro without bodies, or
that of a slice without values in a body that the subject does not reach. -/
inductive DropsHollowAxis (s : Subject) : Prop
  | bodies {m} : m ∈ s.symbols.macros → m.name ∉ References.collect s → m.bodies = [] →
      DropsHollowAxis s
  | slice {m body e r} : m ∈ s.symbols.macros → m.name ∉ References.collect s → body ∈ m.bodies →
      e ∈ body.nodes → e.slice? = some r → (∀ v vs, r.candidates s.symbols ≠ .ok (v :: vs)) →
      DropsHollowAxis s

/-- A node of a body that is not reached has a slice with values, unless a hollow axis is dropped. -/
theorem kept_or_candidates (hhollow : ¬s.DropsHollowAxis) {e : Expr} {r : SliceRef}
    (he : e ∈ s.keptNodes false) (hr : e.slice? = some r) :
    e ∈ s.keptNodes true ∨ ∃ v vs, r.candidates s.symbols = .ok (v :: vs) := by
  simp only [keptNodes, List.mem_append, List.mem_flatMap, List.mem_filter] at he ⊢
  rcases he with he | ⟨body, ⟨m, ⟨hm, -⟩, hbody⟩, he⟩
  · exact .inl (.inl he)
  · by_cases hkept : m.name ∈ References.collect s
    · exact .inl (.inr ⟨body, ⟨m, ⟨hm, isKept_pruned.2 hkept⟩, hbody⟩, he⟩)
    · refine .inr (Classical.byContradiction fun hnone => hhollow ?_)
      exact .slice hm hkept hbody he hr fun v vs hv => hnone ⟨v, vs, hv⟩

theorem exists_full_space (hhollow : ¬s.DropsHollowAxis) (hpruned : s.space true = .ok pruned) :
    ∃ full, s.space false = .ok full := by
  refine exists_space.2 fun e he r hr => ?_
  rcases kept_or_candidates hhollow he hr with he | ⟨v, vs, hv⟩
  · exact exists_space.1 ⟨pruned, hpruned⟩ e he r hr
  · exact ⟨v :: vs, hv⟩

theorem HasAxis.kept_or_pos (hwf : s.symbols.WellFormed) (hhollow : ¬s.DropsHollowAxis) {a : Axis}
    (h : s.HasAxis false a) : s.HasAxis true a ∨ 0 < a.size := by
  rcases h with ⟨hp, -⟩ | @⟨m, hm, -⟩ | ⟨he, hr, hvalues⟩
  · exact .inr (List.length_pos_iff.2 (hwf.values_ne_nil _ hp))
  · by_cases hkept : m.name ∈ References.collect s
    · exact .inl (.bodies hm (isKept_pruned.2 hkept))
    · exact .inr (List.length_pos_iff.2 fun hnil => hhollow (.bodies hm hkept hnil))
  · rcases kept_or_candidates hhollow he hr with he | ⟨v, vs, hv⟩
    · exact .inl (.slice he hr hvalues)
    · rw [hvalues] at hv
      cases hv
      exact .inr (Nat.succ_pos _)

/-- Without hollow axes a context of the pruned space is part of one of the full space. -/
theorem exists_full_indices (hwf : s.symbols.WellFormed) (hhollow : ¬s.DropsHollowAxis)
    (hfull : s.space false = .ok full) (hpruned : s.space true = .ok pruned)
    (hjs : List.Forall₂ (· < ·) js pruned.sizes) :
    ∃ is, List.Forall₂ (· < ·) is full.sizes ∧ s.SameIndices full is pruned js := by
  have hindex : ∀ a ∈ full.axes, ∃ index < a.size,
      a ∈ pruned.axes → (a, index) ∈ pruned.axes.zip js := by
    intro a ha
    by_cases hkept : a ∈ pruned.axes
    · obtain ⟨index, hmem, hlt⟩ := ContextSpace.exists_index hjs hkept
      exact ⟨index, hlt, fun _ => hmem⟩
    · refine ⟨0, ?_, fun h => absurd h hkept⟩
      rcases ((mem_axes hfull).1 ha).kept_or_pos hwf hhollow with h | h
      · exact absurd ((mem_axes hpruned).2 h) hkept
      · exact h
  obtain ⟨is, his, hmem⟩ := ContextSpace.exists_indices hindex
  have hsub : pruned.axes.zip js ⊆ full.axes.zip is := by
    rintro ⟨a, j⟩ hj
    have ha : a ∈ pruned.axes := (List.of_mem_zip hj).1
    obtain ⟨i, hi, -⟩ := ContextSpace.exists_index his (axes_subset hfull hpruned ha)
    have hij := ContextSpace.index_unique (axes_nodup hwf hpruned) (hmem (a, i) hi ha) hj
    exact hij ▸ hi
  have hislen := ContextSpace.length_of_below his
  exact ⟨is, his, hwf, hfull, hpruned, hislen, ContextSpace.length_of_below hjs, hsub⟩

/-! ## Renderings with and without pruning -/

variable {functions : Registry} {config : Config} {r : ResolvedSubject}

theorem mem_rendered_pruned (hwf : s.symbols.WellFormed)
    (h : r ∈ (s.resolve functions { config with prune := false }).rendered) :
    r ∈ (s.resolve functions { config with prune := true }).rendered := by
  obtain ⟨full, hfull, is, his, hr⟩ := mem_rendered.1 h
  obtain ⟨pruned, hpruned⟩ : ∃ pruned, s.space true = .ok pruned :=
    exists_space.2 fun e he => exists_space.1 ⟨full, hfull⟩ e (keptNodes_subset he)
  obtain ⟨js, hjs, hsame⟩ := exists_pruned_indices hwf hfull hpruned his
  refine mem_rendered.2 ⟨pruned, hpruned, js, hjs, ?_⟩
  exact (hsame.render config _).symm.trans hr

theorem mem_rendered_full (hwf : s.symbols.WellFormed) (hhollow : ¬s.DropsHollowAxis)
    (h : r ∈ (s.resolve functions { config with prune := true }).rendered) :
    r ∈ (s.resolve functions { config with prune := false }).rendered := by
  obtain ⟨pruned, hpruned, js, hjs, hr⟩ := mem_rendered.1 h
  obtain ⟨full, hfull⟩ := exists_full_space hhollow hpruned
  obtain ⟨is, his, hsame⟩ := exists_full_indices hwf hhollow hfull hpruned hjs
  refine mem_rendered.2 ⟨full, hfull, is, his, ?_⟩
  exact (hsame.render config _).trans hr

/-- A dropped hollow axis leaves the full product without contexts. -/
theorem not_mem_rendered_full (h : s.DropsHollowAxis) :
    r ∉ (s.resolve functions { config with prune := false }).rendered := by
  intro hr
  obtain ⟨full, hfull, is, his, -⟩ := mem_rendered.1 hr
  have hpos : ∀ a, s.HasAxis false a → 0 < a.size := by
    intro a ha
    obtain ⟨index, -, hlt⟩ := ContextSpace.exists_index his ((mem_axes hfull).2 ha)
    exact Nat.zero_lt_of_lt hlt
  rcases h with ⟨hm, -, hbodies⟩ | @⟨m, body, e, r, hm, -, hbody, he, hr, hnone⟩
  · exact absurd (hpos _ (.bodies hm (isKept_full _))) (by simp [Axis.size, hbodies])
  · have hkept : e ∈ s.keptNodes false := by
      simp only [keptNodes, List.mem_append, List.mem_flatMap, List.mem_filter]
      exact .inr ⟨body, ⟨m, ⟨hm, isKept_full _⟩, hbody⟩, he⟩
    obtain ⟨values, hvalues⟩ := exists_space.1 ⟨full, hfull⟩ e hkept r hr
    cases values with
    | nil => exact absurd (hpos _ (.slice hkept hr hvalues)) (Nat.lt_irrefl 0)
    | cons v vs => exact hnone v vs hvalues

end Subject

namespace Suite

/-- The renderings without pruning are those that pruning yields for the subjects that lose no hollow
axis. They are the same as with pruning just when nothing else comes from the other subjects. -/
theorem resolve_pruned {functions functions' : Registry} {d : SuiteDefinition} {suite : Suite}
    (hsuite : (Suite.compile functions d).result = .ok suite) (config : Config) :
    (∀ r, r ∈ (suite.resolve functions' { config with prune := false }).1.subjects ↔
      ∃ s ∈ suite.subjects, ¬s.DropsHollowAxis ∧
        r ∈ (s.resolve functions' { config with prune := true }).rendered) ∧
    (suite.resolve functions' { config with prune := false }).1.subjects ⊆
      (suite.resolve functions' { config with prune := true }).1.subjects ∧
    ((∀ r, r ∈ (suite.resolve functions' { config with prune := true }).1.subjects ↔
        r ∈ (suite.resolve functions' { config with prune := false }).1.subjects) ↔
      ∀ s ∈ suite.subjects, s.DropsHollowAxis →
        ∀ r ∈ (s.resolve functions' { config with prune := true }).rendered,
          ∃ s' ∈ suite.subjects, ¬s'.DropsHollowAxis ∧
            r ∈ (s'.resolve functions' { config with prune := true }).rendered) := by
  have hwf := Suite.compile_wellFormed hsuite
  have hfull : ∀ r, r ∈ (suite.resolve functions' { config with prune := false }).1.subjects ↔
      ∃ s ∈ suite.subjects, ¬s.DropsHollowAxis ∧
        r ∈ (s.resolve functions' { config with prune := true }).rendered := by
    intro r
    refine mem_resolve.trans (exists_congr fun s => and_congr_right fun hs => ⟨fun h => ?_, ?_⟩)
    · exact ⟨fun hhollow => Subject.not_mem_rendered_full hhollow h,
        Subject.mem_rendered_pruned (hwf s hs) h⟩
    · rintro ⟨hhollow, h⟩
      exact Subject.mem_rendered_full (hwf s hs) hhollow h
  have hsub : (suite.resolve functions' { config with prune := false }).1.subjects ⊆
      (suite.resolve functions' { config with prune := true }).1.subjects := by
    intro r h
    obtain ⟨s, hs, -, hr⟩ := (hfull r).1 h
    exact mem_resolve.2 ⟨s, hs, hr⟩
  refine ⟨hfull, hsub, fun h s hs _ r hr => ?_, fun h r => ⟨fun hr => ?_, fun hr => hsub hr⟩⟩
  · exact (hfull r).1 ((h r).1 (mem_resolve.2 ⟨s, hs, hr⟩))
  · obtain ⟨s, hs, hr⟩ := mem_resolve.1 hr
    by_cases hhollow : s.DropsHollowAxis
    · exact (hfull r).2 (h s hs hhollow r hr)
    · exact (hfull r).2 ⟨s, hs, hhollow, hr⟩

/-- A suite with a macro that has no bodies and that nothing refers to. -/
def hollowSuite : SuiteDefinition where
  id := "suite"
  subjects := [{ id := "subject", name := "name", code := "code", macros := [⟨"m()", []⟩] }]

theorem resolve_pruned_hollowSuite : ∃ suite, (Suite.compile {} hollowSuite).result = .ok suite ∧
    ((∀ r, r ∈ (suite.resolve {} { prune := true }).1.subjects ↔
        r ∈ (suite.resolve {} { prune := false }).1.subjects) ↔
      ∀ s ∈ suite.subjects, s.DropsHollowAxis →
        ∀ r ∈ (s.resolve {} { prune := true }).rendered,
          ∃ s' ∈ suite.subjects, ¬s'.DropsHollowAxis ∧
            r ∈ (s'.resolve {} { prune := true }).rendered) := by
  have hcompiled : (Suite.compile {} hollowSuite).result.toOption.isSome = true := by
    decide +kernel
  obtain ⟨suite, hsuite⟩ := Option.isSome_iff_exists.1 hcompiled
  rw [Except.toOption_eq_some] at hsuite
  exact ⟨suite, hsuite, (resolve_pruned hsuite {}).2.2⟩

/-- Without pruning nothing comes out of it, with pruning its subject does. -/
theorem hollowSuite_resolves_differently : (Suite.compile {} hollowSuite).result.toOption.map
    (fun suite => ((suite.resolve {} { prune := false }).1.subjects,
      (suite.resolve {} { prune := true }).1.subjects)) =
    some ([], [⟨"name", "code", []⟩]) := by
  decide +kernel

end Suite

end Variorum
