import Mathlib.Data.List.Nodup
import Variorum.Proofs.Expr.SliceKey
import Variorum.Proofs.Product.Selection

/-!
# The axes of a subject

The axes that pruning keeps are axes of the full space, and no two axes of a space select for the
same thing.
-/

namespace Variorum

/-! ## The slices of nodes -/

private theorem distinct_foldl (refs : List SliceRef) : ∀ seen : List SliceRef,
    (seen.map SliceRef.key).Nodup →
      ((refs.foldl (fun seen s => if seen.any (·.key = s.key) then seen else seen ++ [s]) seen).map
        SliceRef.key).Nodup ∧
      ∀ r, r ∈ refs.foldl (fun seen s => if seen.any (·.key = s.key) then seen else seen ++ [s]) seen ↔
        r ∈ seen ∨ r ∈ refs := by
  induction refs with
  | nil => exact fun seen hseen => ⟨hseen, by simp⟩
  | cons s refs ih =>
      intro seen hseen
      rw [List.foldl_cons]
      split
      · rename_i hknown
        obtain ⟨known, hmem, hkey⟩ := List.any_eq_true.1 hknown
        have hs : s ∈ seen := SliceRef.key_injective (of_decide_eq_true hkey) ▸ hmem
        refine ⟨(ih seen hseen).1, fun r => ?_⟩
        rw [(ih seen hseen).2, List.mem_cons]
        exact ⟨fun h => h.imp_right .inr, fun h => h.elim .inl (Or.imp_left (· ▸ hs))⟩
      · rename_i hnew
        have hkeys : ((seen ++ [s]).map SliceRef.key).Nodup := by
          rw [List.map_append, List.nodup_append]
          refine ⟨hseen, by simp, fun a ha b hb he => hnew ?_⟩
          obtain ⟨known, hmem, rfl⟩ := List.mem_map.1 ha
          simp only [List.map_cons, List.map_nil, List.mem_singleton] at hb
          exact List.any_eq_true.2 ⟨known, hmem, decide_eq_true (he.trans hb)⟩
        refine ⟨(ih _ hkeys).1, fun r => ?_⟩
        rw [(ih _ hkeys).2, List.mem_append, List.mem_singleton, List.mem_cons, or_assoc]

theorem distinctSlices_nodup (nodes : List Expr) :
    ((distinctSlices nodes).map SliceRef.key).Nodup :=
  (distinct_foldl _ [] List.nodup_nil).1

theorem mem_distinctSlices {nodes : List Expr} {r : SliceRef} :
    r ∈ distinctSlices nodes ↔ ∃ e ∈ nodes, e.slice? = some r := by
  rw [distinctSlices, (distinct_foldl _ [] List.nodup_nil).2, List.mem_filterMap]
  simp

/-! ## The axes of a space -/

namespace Subject

/-- The nodes whose slices are axes. -/
def keptNodes (s : Subject) (prune : Bool) : List Expr :=
  s.nodes ++ ((s.symbols.macros.filter fun m => isKept (s.keptNames prune) m.name).flatMap
    (·.bodies)).flatMap Template.nodes

/-- What is an axis of a subject, with or without pruning. -/
inductive HasAxis (s : Subject) (prune : Bool) : Axis → Prop
  | parameter {p} : p ∈ s.symbols.parameters → isKept (s.keptNames prune) p.name = true →
      HasAxis s prune (.parameter p.name p.values)
  | bodies {m} : m ∈ s.symbols.macros → isKept (s.keptNames prune) m.name = true →
      HasAxis s prune (.bodies m.name m.bodies.length)
  | slice {e r values} : e ∈ s.keptNodes prune → e.slice? = some r →
      r.candidates s.symbols = .ok values → HasAxis s prune (.slice r.key values)

variable {s : Subject} {prune : Bool} {space : ContextSpace} {a b : Axis}

theorem space_eq_ok : s.space prune = .ok space ↔
    ∃ slices, (distinctSlices (s.keptNodes prune)).mapM (sliceAxis s.symbols) = .ok slices ∧
      space = {
        symbols := s.symbols
        axes := (s.symbols.parameters.filter fun p => isKept (s.keptNames prune) p.name).map
            (fun p => .parameter p.name p.values) ++
          (s.symbols.macros.filter fun m => isKept (s.keptNames prune) m.name).map
            (fun m => .bodies m.name m.bodies.length) ++ slices } := by
  refine Except.bind_eq_ok.trans (exists_congr fun slices => and_congr_right fun _ => ?_)
  exact ⟨fun h => by cases h; rfl, fun h => h ▸ rfl⟩

theorem sliceAxis_eq_ok {symbols : SymbolTable} {r : SliceRef} : sliceAxis symbols r = .ok a ↔
    ∃ values, r.candidates symbols = .ok values ∧ .slice r.key values = a :=
  Except.map_eq_ok

/-- There is a space if every slice has candidates. -/
theorem exists_space : (∃ space, s.space prune = .ok space) ↔
    ∀ e ∈ s.keptNodes prune, ∀ r, e.slice? = some r → ∃ values, r.candidates s.symbols = .ok values := by
  have hmapM : (∃ bs, (distinctSlices (s.keptNodes prune)).mapM (sliceAxis s.symbols) = .ok bs) ↔ _ :=
    Except.exists_mapM_eq_ok
  simp only [mem_distinctSlices, sliceAxis_eq_ok] at hmapM
  constructor
  · rintro ⟨space, h⟩ e he r hr
    obtain ⟨slices, hslices, -⟩ := space_eq_ok.1 h
    obtain ⟨a, values, hvalues, -⟩ := hmapM.1 ⟨slices, hslices⟩ r ⟨e, he, hr⟩
    exact ⟨values, hvalues⟩
  · intro h
    obtain ⟨slices, hslices⟩ := hmapM.2 fun r ⟨e, he, hr⟩ =>
      (h e he r hr).elim fun values hvalues => ⟨_, values, hvalues, rfl⟩
    exact ⟨_, space_eq_ok.2 ⟨slices, hslices, rfl⟩⟩

theorem mem_axes (h : s.space prune = .ok space) : a ∈ space.axes ↔ s.HasAxis prune a := by
  obtain ⟨slices, hslices, rfl⟩ := space_eq_ok.1 h
  have hmem : a ∈ slices ↔ ∃ r ∈ distinctSlices (s.keptNodes prune), sliceAxis s.symbols r = .ok a := by
    rw [← List.mem_map, Except.mapM_eq_ok.1 hslices]
    simp
  simp only [List.mem_append, List.mem_map, List.mem_filter, hmem, mem_distinctSlices,
    sliceAxis_eq_ok]
  constructor
  · rintro ((⟨p, ⟨hp, hkept⟩, rfl⟩ | ⟨m, ⟨hm, hkept⟩, rfl⟩) | ⟨r, ⟨e, he, hr⟩, values, hvalues, rfl⟩)
    · exact .parameter hp hkept
    · exact .bodies hm hkept
    · exact .slice he hr hvalues
  · rintro (⟨hp, hkept⟩ | ⟨hm, hkept⟩ | ⟨he, hr, hvalues⟩)
    · exact .inl (.inl ⟨_, ⟨hp, hkept⟩, rfl⟩)
    · exact .inl (.inr ⟨_, ⟨hm, hkept⟩, rfl⟩)
    · exact .inr ⟨_, ⟨_, he, hr⟩, _, hvalues, rfl⟩

theorem space_symbols (h : s.space prune = .ok space) : space.symbols = s.symbols := by
  obtain ⟨slices, -, rfl⟩ := space_eq_ok.1 h
  rfl

/-! ## Axes and slots -/

theorem isKept_full (name : String) : isKept (s.keptNames false) name = true := rfl

theorem isKept_pruned {name : String} :
    isKept (s.keptNames true) name = true ↔ name ∈ References.collect s :=
  List.contains_iff_mem

theorem keptNodes_subset : s.keptNodes true ⊆ s.keptNodes false := by
  intro e he
  simp only [keptNodes, List.mem_append, List.mem_flatMap, List.mem_filter] at he ⊢
  refine he.imp_right ?_
  rintro ⟨t, ⟨m, ⟨hm, -⟩, ht⟩, he⟩
  exact ⟨t, ⟨m, ⟨hm, isKept_full m.name⟩, ht⟩, he⟩

/-- Pruning adds no axis. -/
theorem HasAxis.full (h : s.HasAxis true a) : s.HasAxis false a := by
  rcases h with ⟨hp, -⟩ | ⟨hm, -⟩ | ⟨he, hr, hvalues⟩
  · exact .parameter hp (isKept_full _)
  · exact .bodies hm (isKept_full _)
  · exact .slice (keptNodes_subset he) hr hvalues

/-- No two axes of a space select for the same thing. -/
theorem slots_nodup (hwf : s.symbols.WellFormed) (h : s.space prune = .ok space) :
    (space.axes.map Axis.slot).Nodup := by
  obtain ⟨slices, hslices, rfl⟩ := space_eq_ok.1 h
  have hnames {α : Type} {nameOf : α → String} {as : List α} (hnodup : (as.map nameOf).Nodup) :
      ((as.filter fun a => isKept (s.keptNames prune) (nameOf a)).map nameOf).Nodup :=
    hnodup.sublist (List.filter_sublist.map _)
  have hparameters := (hnames hwf.parameters_nodup).map fun _ _ => Slot.parameter.inj
  have hmacros := (hnames hwf.macros_nodup).map fun _ _ => Slot.bodies.inj
  have hkeys := (distinctSlices_nodup (s.keptNodes prune)).map fun _ _ => Slot.slice.inj
  have hslots : slices.map Axis.slot =
      (distinctSlices (s.keptNodes prune)).map fun r => Slot.slice r.key := by
    refine Except.map_eq_of_mapM (fun r a ha => ?_) hslices
    obtain ⟨values, -, rfl⟩ := sliceAxis_eq_ok.1 ha
    rfl
  rw [List.map_map] at hparameters hmacros hkeys
  rw [List.map_append, List.map_append, List.map_map, List.map_map, hslots, List.nodup_append,
    List.nodup_append]
  refine ⟨⟨hparameters, hmacros, ?_⟩, hkeys, ?_⟩
  · intro a ha b hb
    obtain ⟨p, -, rfl⟩ := List.mem_map.1 ha
    obtain ⟨m, -, rfl⟩ := List.mem_map.1 hb
    exact Slot.noConfusion
  · intro a ha b hb
    obtain ⟨r, -, rfl⟩ := List.mem_map.1 hb
    rcases List.mem_append.1 ha with ha | ha
    · obtain ⟨p, -, rfl⟩ := List.mem_map.1 ha
      exact Slot.noConfusion
    · obtain ⟨m, -, rfl⟩ := List.mem_map.1 ha
      exact Slot.noConfusion

end Subject

end Variorum
