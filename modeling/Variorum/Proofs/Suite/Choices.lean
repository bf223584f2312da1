import Variorum.Proofs.Product.Axes
import Variorum.Proofs.Suite.Pruning

/-!
# One choice on each axis

A context keeps one selection for each slot, and a later one replaces an earlier one. As no two axes of
a subject have the same slot, nothing is replaced: what a context shows is one entry for each axis, in
the order of the axes.
-/

namespace Variorum

/-! ## The order of slots -/

/-- Parameters come before macros, and these before slices. -/
def Slot.rank : Slot → Nat
  | .parameter _ => 0
  | .bodies _ => 1
  | .slice _ => 2

/-- The first slot comes no later than the second and is another one. -/
def Slot.Before (a b : Slot) : Prop :=
  a.rank ≤ b.rank ∧ a ≠ b

/-- How the selection of an index is shown. -/
def Axis.shown? (index : Nat) : Axis → Option (String × String)
  | .parameter name values => values[index]?.map fun v => (name, v.display)
  | .bodies name _ => some (name ++ "()", s!"body {index}")
  | .slice key values => values[index]?.map fun v => (key, v.display)

theorem rebind_of_new {α : Type} {key : String} {a : α} {pairs : List (String × α)}
    (h : ∀ p ∈ pairs, p.1 ≠ key) : rebind key a pairs = pairs ++ [(key, a)] := by
  rw [rebind, List.filter_eq_self.2 fun p hp => decide_eq_true (h p hp)]

/-! ## Filling a slot -/

namespace Axis

/-- A selection for a slot behind all others adds its entry and nothing else. -/
theorem select_frame {a : Axis} {ctx : Context} {index : Nat} (hlt : index < a.size)
    (h : ∀ slot ∈ ctx.frame.slots, slot.Before a.slot) :
    (a.select ctx index).frame.slots = ctx.frame.slots ++ [a.slot] ∧
      (a.select ctx index).frame.display.map some =
        ctx.frame.display.map some ++ [a.shown? index] := by
  obtain ⟨symbols, ⟨bindings, bodies, slices⟩, calls⟩ := ctx
  simp only [Frame.slots, List.mem_append, List.mem_map] at h
  cases a with
  | parameter name values =>
      have hbodies : bodies = [] := List.eq_nil_iff_forall_not_mem.2 fun b hb =>
        Nat.not_succ_le_zero 0 (h _ (.inl (.inr ⟨b, hb, rfl⟩))).1
      have hslices : slices = [] := List.eq_nil_iff_forall_not_mem.2 fun b hb =>
        Nat.not_succ_le_zero 1 (h _ (.inr ⟨b, hb, rfl⟩)).1
      have hnew : ∀ b ∈ bindings, b.1 ≠ name := fun b hb he =>
        (h _ (.inl (.inl ⟨b, hb, rfl⟩))).2 (congrArg Slot.parameter he)
      have hvalue : values[index]? = some values[index] := List.getElem?_eq_getElem hlt
      subst hbodies hslices
      simp [select, shown?, slot, hvalue, Context.bind, Frame.bind, rebind_of_new hnew, Frame.slots,
        Frame.display]
  | bodies name count =>
      have hslices : slices = [] := List.eq_nil_iff_forall_not_mem.2 fun b hb =>
        Nat.not_succ_le_self 1 (h _ (.inr ⟨b, hb, rfl⟩)).1
      have hnew : ∀ b ∈ bodies, b.1 ≠ name := fun b hb he =>
        (h _ (.inl (.inr ⟨b, hb, rfl⟩))).2 (congrArg Slot.bodies he)
      subst hslices
      simp [select, shown?, slot, Context.selectBody, Frame.selectBody, rebind_of_new hnew,
        Frame.slots, Frame.display]
  | slice key values =>
      have hnew : ∀ b ∈ slices, b.1 ≠ key := fun b hb he =>
        (h _ (.inr ⟨b, hb, rfl⟩)).2 (congrArg Slot.slice he)
      have hvalue : values[index]? = some values[index] := List.getElem?_eq_getElem hlt
      simp [select, shown?, slot, hvalue, Context.selectSlice, Frame.selectSlice, rebind_of_new hnew,
        Frame.slots, Frame.display]

end Axis

namespace ContextSpace

/-- The axes in the order of their slots add one entry each. -/
private theorem display_foldl (pairs : List (Axis × Nat)) : ∀ ctx : Context,
    (∀ p ∈ pairs, p.2 < p.1.size) →
    (ctx.frame.slots ++ pairs.map (·.1.slot)).Pairwise Slot.Before →
      (pairs.foldl (fun ctx p => p.1.select ctx p.2) ctx).frame.display.map some =
        ctx.frame.display.map some ++ pairs.map fun p => p.1.shown? p.2 := by
  induction pairs with
  | nil => exact fun ctx _ _ => (List.append_nil _).symm
  | cons p pairs ih =>
      intro ctx hlt h
      rw [List.map_cons] at h
      have hbehind : ∀ slot ∈ ctx.frame.slots, slot.Before p.1.slot := fun slot hslot =>
        (List.pairwise_append.1 h).2.2 slot hslot _ List.mem_cons_self
      obtain ⟨hslots, hdisplay⟩ := Axis.select_frame (hlt p List.mem_cons_self) hbehind
      rw [List.foldl_cons, ih _ fun q hq => hlt q (List.mem_cons_of_mem _ hq), hdisplay,
        List.append_assoc, List.singleton_append, List.map_cons]
      rwa [hslots, List.append_assoc, List.singleton_append]

variable {space : ContextSpace} {indices : List Nat}

theorem lt_size_of_mem_zip (h : List.Forall₂ (· < ·) indices space.sizes) {p : Axis × Nat}
    (hp : p ∈ space.axes.zip indices) : p.2 < p.1.size :=
  (List.forall₂_iff_zip.1 (List.forall₂_map_right_iff.1 h).flip).2 hp

theorem bindings_contextAt (h : (space.axes.map Axis.slot).Pairwise Slot.Before)
    (hindices : List.Forall₂ (· < ·) indices space.sizes) :
    (space.contextAt indices).bindings.map some =
      (space.axes.zip indices).map fun p => p.1.shown? p.2 := by
  have hfst : (space.axes.zip indices).map (·.1.slot) = space.axes.map Axis.slot := by
    conv_rhs => rw [← List.map_fst_zip (Nat.le_of_eq (length_of_below hindices).symm), List.map_map]
    rfl
  have hframe : (space.contextAt indices).bindings = (space.contextAt indices).frame.display := by
    simp [Context.bindings, Context.frames, contextAt_symbols.2]
  rw [hframe, contextAt, display_foldl _ _ fun p hp => lt_size_of_mem_zip hindices hp]
  · rfl
  · exact hfst ▸ h

/-- In the context of some indices every axis has made one choice, the value or the body of its index,
and the choices are shown in the order of the axes. -/
structure Chooses (space : ContextSpace) (indices : List Nat) : Prop where
  length : indices.length = space.axes.length
  parameter : ∀ name values index, (.parameter name values, index) ∈ space.axes.zip indices →
    ∃ v, values[index]? = some v ∧ (space.contextAt indices).lookup? name = some v
  bodies : ∀ name count index, (.bodies name count, index) ∈ space.axes.zip indices →
    index < count ∧ (space.contextAt indices).body? name = some index
  slice : ∀ key values index, (.slice key values, index) ∈ space.axes.zip indices →
    ∃ v, values[index]? = some v ∧ (space.contextAt indices).slice? key = some v
  bindings : (space.contextAt indices).bindings.map some =
    (space.axes.zip indices).map fun p => p.1.shown? p.2

theorem chooses_of_below (h : (space.axes.map Axis.slot).Pairwise Slot.Before)
    (hindices : List.Forall₂ (· < ·) indices space.sizes) : space.Chooses indices := by
  have hlen := length_of_below hindices
  have hselected {a : Axis} {index : Nat} (hmem : (a, index) ∈ space.axes.zip indices) :
      (space.contextAt indices).selected? a.slot = a.at? index :=
    selected?_contextAt (h.imp And.right) hlen hmem
  have hvalue {values : List Value} {index : Nat} (hlt : index < values.length) :
      ∃ v, values[index]? = some v := ⟨_, List.getElem?_eq_getElem hlt⟩
  refine ⟨hlen, fun name values index hmem => ?_, fun name count index hmem => ?_,
    fun key values index hmem => ?_, bindings_contextAt h hindices⟩
  · obtain ⟨v, hv⟩ := hvalue (lt_size_of_mem_zip hindices hmem)
    have hlookup : (space.contextAt indices).lookup? name = values[index]? :=
      Option.map_injective (fun _ _ => Sum.inl.inj) (hselected hmem)
    exact ⟨v, hv, hlookup.trans hv⟩
  · have hbody : (space.contextAt indices).body? name = some index :=
      Option.map_injective (fun _ _ => Sum.inr.inj) (hselected hmem)
    exact ⟨lt_size_of_mem_zip hindices hmem, hbody⟩
  · obtain ⟨v, hv⟩ := hvalue (lt_size_of_mem_zip hindices hmem)
    have hslice : (space.contextAt indices).slice? key = values[index]? :=
      Option.map_injective (fun _ _ => Sum.inl.inj) (hselected hmem)
    exact ⟨v, hv, hslice.trans hv⟩

end ContextSpace

namespace Subject

variable {s : Subject} {prune : Bool} {space : ContextSpace}

/-- The axes come in the order in which contexts show them. -/
theorem slots_sorted (h : s.space prune = .ok space) :
    (space.axes.map Axis.slot).Pairwise (·.rank ≤ ·.rank) := by
  obtain ⟨slices, hslices, rfl⟩ := space_eq_ok.1 h
  have hrank : slices.map (·.slot.rank) = (distinctSlices (s.keptNodes prune)).map fun _ => 2 := by
    refine Except.map_eq_of_mapM (fun r a ha => ?_) hslices
    obtain ⟨values, -, rfl⟩ := sliceAxis_eq_ok.1 ha
    rfl
  rw [List.pairwise_map, ← List.pairwise_map (f := fun a : Axis => a.slot.rank) (R := (· ≤ ·)),
    List.map_append, List.map_append, List.map_map, List.map_map, hrank]
  simp only [Function.comp_def, Axis.slot, Slot.rank, List.map_const', List.pairwise_append,
    List.pairwise_replicate, List.mem_append, List.mem_replicate]
  grind

theorem slots_before (hwf : s.symbols.WellFormed) (h : s.space prune = .ok space) :
    (space.axes.map Axis.slot).Pairwise Slot.Before :=
  (slots_sorted h).and (slots_nodup hwf h)

/-- No two axes of a compiled subject select for the same thing, and a slice is known by its canonical
text. Every context of the subject is one choice on each axis. -/
theorem contexts_choose {functions : Registry} {d : SuiteDefinition} {suite : Suite}
    (hsuite : (Suite.compile functions d).result = .ok suite) (hs : s ∈ suite.subjects)
    (config : Config) (hspace : s.space config.prune = .ok space) :
    (space.axes.map Axis.slot).Nodup ∧ (∀ r r' : SliceRef, r.key = r'.key ↔ r = r') ∧
      ∀ indices ∈ Odometer.all space.sizes, space.Chooses indices := by
  have hwf := Suite.compile_wellFormed hsuite s hs
  refine ⟨slots_nodup hwf hspace, fun r r' => ⟨SliceRef.key_injective, congrArg _⟩, ?_⟩
  exact fun indices hindices =>
    ContextSpace.chooses_of_below (slots_before hwf hspace) (Odometer.mem_all.1 hindices)

theorem contexts_choose_prunableSuite : ∃ suite s space,
    (Suite.compile {} prunableSuite).result = .ok suite ∧ s ∈ suite.subjects ∧
      s.space false = .ok space ∧ [1, 0, 1, 0] ∈ Odometer.all space.sizes ∧
      space.Chooses [1, 0, 1, 0] := by
  have hspace : ((Suite.compile {} prunableSuite).result.toOption.bind (·.subjects.head?)).bind
      (fun s => (s.space false).toOption.map ContextSpace.sizes) = some [2, 2, 2, 1] := by
    decide +kernel
  simp only [Option.bind_eq_some_iff, Option.map_eq_some_iff, Except.toOption_eq_some] at hspace
  obtain ⟨s, ⟨suite, hsuite, hhead⟩, space, hspace, hsizes⟩ := hspace
  have hs : s ∈ suite.subjects := List.mem_of_head? hhead
  have hindices : [1, 0, 1, 0] ∈ Odometer.all space.sizes := by
    rw [hsizes]
    decide
  have hchoose := (contexts_choose hsuite hs {} hspace).2.2 _ hindices
  exact ⟨suite, s, space, hsuite, hs, hspace, hindices, hchoose⟩

end Subject

end Variorum
