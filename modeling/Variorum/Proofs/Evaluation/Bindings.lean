import Mathlib.Data.List.Nodup
import Variorum.Proofs.Product.Selection
import Variorum.Proofs.Registry.Entries

/-!
# What a context shows

A context shows the selections of all its frames, the outermost first, while a look-up stops at the
innermost frame that answers it. So of the entries for one slot the last is what is visible, and the
others are selections that it hides.
-/

namespace Variorum

/-! ## Entries -/

/-- The entries that a frame shows, each with the slot that it is for. -/
def Frame.entries (f : Frame) : List (Slot × String × String) :=
  f.bindings.map (fun b => (.parameter b.1, b.1, b.2.display)) ++
    f.bodies.map (fun b => (.bodies b.1, b.1 ++ "()", s!"body {b.2}")) ++
    f.slices.map (fun b => (.slice b.1, b.1, b.2.display))

/-- The entry for what a frame has selected for a slot. -/
def Frame.shown? (f : Frame) : Slot → Option (String × String)
  | .parameter name => (assoc? name f.bindings).map fun v => (name, v.display)
  | .bodies name => (assoc? name f.bodies).map fun index => (name ++ "()", s!"body {index}")
  | .slice key => (assoc? key f.slices).map fun v => (key, v.display)

namespace Context

/-- Contexts that are made from an empty one by selecting and by calling macros. -/
inductive Built (symbols : SymbolTable) : Context → Prop
  | root : Built symbols (.root symbols)
  | bind {ctx} (name v) : Built symbols ctx → Built symbols (ctx.bind name v)
  | selectBody {ctx} (name index) : Built symbols ctx → Built symbols (ctx.selectBody name index)
  | selectSlice {ctx} (key v) : Built symbols ctx → Built symbols (ctx.selectSlice key v)
  | child {ctx} (callee args) : Built symbols ctx → Built symbols (ctx.child callee args)

/-- The entries that a context shows, each with the slot that it is for. -/
def entries (ctx : Context) : List (Slot × String × String) :=
  ctx.frames.reverse.flatMap Frame.entries

/-- The entry for what is visible in a slot: what a look-up answers now. -/
def shown? (ctx : Context) : Slot → Option (String × String)
  | .parameter name => (ctx.lookup? name).map fun v => (name, v.display)
  | .bodies name => (ctx.body? name).map fun index => (name ++ "()", s!"body {index}")
  | .slice key => (ctx.slice? key).map fun v => (key, v.display)

/-- No slot has two entries, and each entry is for what is visible. -/
def ShowsVisible (ctx : Context) : Prop :=
  (ctx.entries.map (·.1)).Nodup ∧ ∀ e ∈ ctx.entries, ctx.shown? e.1 = some e.2

end Context

variable {f : Frame} {slot : Slot} {entry : String × String} {name key callee : String} {v : Value}
  {index : Nat} {symbols : SymbolTable} {ctx : Context} {args : List (String × Value)}

/-- The last entry for a slot. -/
def lastShown? (slot : Slot) (entries : List (Slot × String × String)) : Option (String × String) :=
  (entries.reverse.find? (·.1 = slot)).map (·.2)

theorem lastShown?_append {es es' : List (Slot × String × String)} :
    lastShown? slot (es ++ es') = (lastShown? slot es').or (lastShown? slot es) := by
  simp only [lastShown?, List.reverse_append, List.find?_append]
  cases es'.reverse.find? (·.1 = slot) <;> rfl

/-- Where no slot has two entries, each entry is the last one of its slot. -/
theorem lastShown?_eq_some_iff {es : List (Slot × String × String)} (h : (es.map (·.1)).Nodup) :
    lastShown? slot es = some entry ↔ (slot, entry) ∈ es := by
  rw [lastShown?, Option.map_eq_some_iff]
  constructor
  · rintro ⟨e, he, rfl⟩
    have hslot : e.1 = slot := by simpa using List.find?_some he
    exact hslot ▸ List.mem_reverse.1 (List.mem_of_find?_eq_some he)
  · intro hmem
    have hsome : (es.reverse.find? (·.1 = slot)).isSome := by
      rw [List.find?_isSome]
      exact ⟨_, List.mem_reverse.2 hmem, by simp⟩
    obtain ⟨e, he⟩ := Option.isSome_iff_exists.1 hsome
    have hslot : e.1 = slot := by simpa using List.find?_some he
    have heq := List.inj_on_of_nodup_map h (List.mem_reverse.1 (List.mem_of_find?_eq_some he)) hmem hslot
    exact ⟨e, he, congrArg (·.2) heq⟩

/-! ## Frames -/

namespace Frame

theorem map_fst_entries (f : Frame) : f.entries.map (·.1) = f.slots := by
  simp [entries, slots, Function.comp_def]

theorem map_snd_entries (f : Frame) : f.entries.map (·.2) = f.display := by
  simp [entries, display, Function.comp_def]

theorem nodup_slots_iff : f.slots.Nodup ↔ (f.bindings.map (·.1)).Nodup ∧ (f.bodies.map (·.1)).Nodup ∧
    (f.slices.map (·.1)).Nodup := by
  have hslots : f.slots = (f.bindings.map (·.1)).map .parameter ++ (f.bodies.map (·.1)).map .bodies ++
      (f.slices.map (·.1)).map .slice := by
    simp [slots, Function.comp_def]
  have hparameter : Function.Injective Slot.parameter := fun _ _ => Slot.parameter.inj
  have hbodies : Function.Injective Slot.bodies := fun _ _ => Slot.bodies.inj
  have hslice : Function.Injective Slot.slice := fun _ _ => Slot.slice.inj
  rw [hslots, List.nodup_append, List.nodup_append, List.nodup_map_iff hparameter,
    List.nodup_map_iff hbodies, List.nodup_map_iff hslice]
  constructor
  · rintro ⟨⟨hbindings, hbodies, -⟩, hslices, -⟩
    exact ⟨hbindings, hbodies, hslices⟩
  · rintro ⟨hbindings, hbodies, hslices⟩
    -- No two of the three kinds of slots have one in common.
    refine ⟨⟨hbindings, hbodies, ?_⟩, hslices, ?_⟩ <;> grind

theorem assoc?_eq_some_iff {α : Type} {pairs : List (String × α)} {a : α}
    (h : (pairs.map (·.1)).Nodup) : assoc? key pairs = some a ↔ (key, a) ∈ pairs :=
  Entries.get?_eq_some_iff h

/-- A frame without two selections for a slot shows for each slot what it has selected there. -/
theorem mem_entries_iff (h : f.slots.Nodup) : (slot, entry) ∈ f.entries ↔ f.shown? slot = some entry := by
  obtain ⟨hbindings, hbodies, hslices⟩ := nodup_slots_iff.1 h
  cases slot with
  | parameter name => simp [entries, shown?, assoc?_eq_some_iff hbindings]
  | bodies name => simp [entries, shown?, assoc?_eq_some_iff hbodies]
  | slice key => simp [entries, shown?, assoc?_eq_some_iff hslices]

theorem nodup_rebind {α : Type} {pairs : List (String × α)} {a : α} (h : (pairs.map (·.1)).Nodup) :
    ((rebind key a pairs).map (·.1)).Nodup := by
  have hfilter : (pairs.filter (·.1 ≠ key)).map (·.1) = (pairs.map (·.1)).filter (· ≠ key) := by
    rw [List.filter_map]
    rfl
  rw [rebind, List.map_append, List.map_singleton, ← List.concat_eq_append, hfilter]
  exact (h.filter _).concat (by simp)

theorem nodup_slots_bind (h : f.slots.Nodup) : (f.bind name v).slots.Nodup := by
  obtain ⟨hbindings, hbodies, hslices⟩ := nodup_slots_iff.1 h
  exact nodup_slots_iff.2 ⟨nodup_rebind hbindings, hbodies, hslices⟩

theorem nodup_slots_selectBody (h : f.slots.Nodup) : (f.selectBody name index).slots.Nodup := by
  obtain ⟨hbindings, hbodies, hslices⟩ := nodup_slots_iff.1 h
  exact nodup_slots_iff.2 ⟨hbindings, nodup_rebind hbodies, hslices⟩

theorem nodup_slots_selectSlice (h : f.slots.Nodup) : (f.selectSlice key v).slots.Nodup := by
  obtain ⟨hbindings, hbodies, hslices⟩ := nodup_slots_iff.1 h
  exact nodup_slots_iff.2 ⟨hbindings, hbodies, nodup_rebind hslices⟩

theorem nodup_slots_ofArgs (args : List (String × Value)) : (ofArgs args).slots.Nodup :=
  List.foldlRecOn (motive := fun f : Frame => f.slots.Nodup) args _ List.nodup_nil
    fun _ h _ _ => nodup_slots_bind h

end Frame

/-! ## Contexts -/

namespace Context

theorem Built.nodup_slots (h : Built symbols ctx) : ∀ f ∈ ctx.frames, f.slots.Nodup := by
  induction h with
  | root => exact List.forall_mem_singleton.2 List.nodup_nil
  | bind name v _ ih =>
      obtain ⟨hframe, hcalls⟩ := List.forall_mem_cons.1 ih
      exact List.forall_mem_cons.2 ⟨Frame.nodup_slots_bind hframe, hcalls⟩
  | selectBody name index _ ih =>
      obtain ⟨hframe, hcalls⟩ := List.forall_mem_cons.1 ih
      exact List.forall_mem_cons.2 ⟨Frame.nodup_slots_selectBody hframe, hcalls⟩
  | selectSlice key v _ ih =>
      obtain ⟨hframe, hcalls⟩ := List.forall_mem_cons.1 ih
      exact List.forall_mem_cons.2 ⟨Frame.nodup_slots_selectSlice hframe, hcalls⟩
  | child callee args _ ih => exact List.forall_mem_cons.2 ⟨Frame.nodup_slots_ofArgs args, ih⟩

theorem map_snd_entries (ctx : Context) : ctx.entries.map (·.2) = ctx.bindings := by
  rw [entries, List.map_flatMap, bindings]
  exact List.flatMap_congr fun f _ => f.map_snd_entries

theorem map_fst_entries (ctx : Context) :
    ctx.entries.map (·.1) = ctx.frames.reverse.flatMap Frame.slots := by
  rw [entries, List.map_flatMap]
  exact List.flatMap_congr fun f _ => f.map_fst_entries

theorem shown?_eq_findSome? (ctx : Context) (slot : Slot) :
    ctx.shown? slot = ctx.frames.findSome? (·.shown? slot) := by
  cases slot <;> exact List.map_findSome?

/-- A look-up goes through the frames from the innermost, and so finds what is shown last. -/
theorem lastShown?_entries (h : ∀ f ∈ ctx.frames, f.slots.Nodup) (slot : Slot) :
    lastShown? slot ctx.entries = ctx.shown? slot := by
  rw [shown?_eq_findSome?, entries]
  generalize ctx.frames = frames at h ⊢
  induction frames with
  | nil => rfl
  | cons f frames ih =>
      obtain ⟨hf, hframes⟩ := List.forall_mem_cons.1 h
      have hlast : lastShown? slot f.entries = f.shown? slot := by
        ext entry
        rw [lastShown?_eq_some_iff (by rwa [Frame.map_fst_entries]), Frame.mem_entries_iff hf]
      rw [List.reverse_cons, List.flatMap_append, List.flatMap_singleton, lastShown?_append, hlast,
        ih hframes, List.findSome?_cons]
      cases f.shown? slot <;> rfl

/-- What a context shows is what is visible exactly if no frame has a selection for a slot for which a
frame around it has one. -/
theorem showsVisible_iff (h : ∀ f ∈ ctx.frames, f.slots.Nodup) :
    ctx.ShowsVisible ↔ ctx.frames.Pairwise fun inner outer => inner.slots.Disjoint outer.slots := by
  have hnodup : (ctx.entries.map (·.1)).Nodup ↔
      ctx.frames.Pairwise fun inner outer => inner.slots.Disjoint outer.slots := by
    rw [map_fst_entries, List.nodup_flatMap, List.pairwise_reverse,
      and_iff_right fun f hf => h f (List.mem_reverse.1 hf)]
    exact List.Pairwise.iff fun _ _ => List.disjoint_comm
  refine ⟨fun hshows => hnodup.1 hshows.1, fun hdisjoint => ⟨hnodup.2 hdisjoint, fun e he => ?_⟩⟩
  rw [← lastShown?_entries h]
  exact (lastShown?_eq_some_iff (hnodup.2 hdisjoint)).2 he

/-- Of the entries that a context shows, the last one for a slot is for what is visible there, and there
is none where nothing is. Each frame adds at most one entry for a slot. So the context shows what is
visible, and that once, exactly if no call hides a selection of its caller. -/
theorem bindings_last_visible (h : Built symbols ctx) :
    ctx.entries.map (·.2) = ctx.bindings ∧ (∀ f ∈ ctx.frames, f.slots.Nodup) ∧
      (∀ slot, lastShown? slot ctx.entries = ctx.shown? slot) ∧
      (ctx.ShowsVisible ↔
        ctx.frames.Pairwise fun inner outer => inner.slots.Disjoint outer.slots) :=
  ⟨ctx.map_snd_entries, h.nodup_slots, lastShown?_entries h.nodup_slots, showsVisible_iff h.nodup_slots⟩

/-- A call with an argument `y`, from where `x` is bound and a body is selected. -/
def nestedCall : Context :=
  (((root .empty).bind "x" (.integer 9)).selectBody "m" 1).child "m" [("y", .integer 5)]

theorem bindings_last_visible_nestedCall : Built .empty nestedCall ∧ nestedCall.ShowsVisible ∧
    nestedCall.bindings = [("x", "9"), ("m()", "body 1"), ("y", "5")] := by
  have hbuilt : Built .empty nestedCall :=
    .child "m" _ (.selectBody "m" 1 (.bind "x" (.integer 9) .root))
  obtain ⟨hentries, -, -, hshows⟩ := bindings_last_visible hbuilt
  refine ⟨hbuilt, hshows.2 ?_, by rw [← hentries]; decide +kernel⟩
  simp [nestedCall, frames, child, selectBody, bind, root, Frame.ofArgs, Frame.slots, Frame.bind,
    Frame.selectBody, rebind]

/-- A call with an argument of the name that is bound where it comes from. -/
def hidingCall : Context :=
  ((root .empty).bind "x" (.integer 9)).child "m" [("x", .integer 5)]

/-- A hidden selection is still shown. -/
theorem hidingCall_shows_hidden : Built .empty hidingCall ∧
    hidingCall.bindings = [("x", "9"), ("x", "5")] ∧ hidingCall.lookup? "x" = some (.integer 5) ∧
    ¬hidingCall.ShowsVisible := by
  refine ⟨.child "m" _ (.bind "x" (.integer 9) .root), by decide +kernel, rfl, fun hshows => ?_⟩
  exact absurd hshows.1 (by decide +kernel)

end Context

end Variorum
