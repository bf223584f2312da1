import Mathlib.Data.List.Forall2
import Variorum.Product.Space
import Variorum.Proofs.Decimal.Integer
import Variorum.Proofs.Except
import Variorum.Proofs.Symbols.WellFormed

/-!
# What the contexts of a space select

No two axes of a subject select for the same thing, so that a context selects on each axis what its
index says.
-/

namespace Variorum

/-- What an axis selects for. -/
inductive Slot
  | parameter (name : String)
  | bodies (name : String)
  | slice (key : String)
  deriving DecidableEq

/-- What a frame has selected for, in the order in which it is shown. -/
def Frame.slots (f : Frame) : List Slot :=
  f.bindings.map (fun b => .parameter b.1) ++ f.bodies.map (fun b => .bodies b.1) ++
    f.slices.map (fun b => .slice b.1)

namespace Axis

def slot : Axis → Slot
  | .parameter name _ => .parameter name
  | .bodies name _ => .bodies name
  | .slice key _ => .slice key

/-- The value or the body of an index. -/
def at? (index : Nat) : Axis → Option (Value ⊕ Nat)
  | .parameter _ values => values[index]?.map .inl
  | .bodies _ _ => some (.inr index)
  | .slice _ values => values[index]?.map .inl

end Axis

namespace Context

def selected? (ctx : Context) : Slot → Option (Value ⊕ Nat)
  | .parameter name => (ctx.lookup? name).map .inl
  | .bodies name => (ctx.body? name).map .inr
  | .slice key => (ctx.slice? key).map .inl

/-! ## Selecting -/

theorem assoc?_append {α : Type} (k : String) (xs ys : List (String × α)) :
    assoc? k (xs ++ ys) = (assoc? k xs).or (assoc? k ys) := by
  unfold assoc?
  rw [List.find?_append]
  cases xs.find? (·.1 = k) <;> rfl

theorem assoc?_filter_ne {α : Type} (key k : String) (pairs : List (String × α)) :
    assoc? k (pairs.filter (·.1 ≠ key)) = if key = k then none else assoc? k pairs := by
  unfold assoc?
  induction pairs with
  | nil => simp
  | cons p pairs ih =>
      by_cases hp : p.1 = key
      · rw [List.filter_cons_of_neg (by simp [hp]), ih]
        split
        · rfl
        · rename_i hne
          rw [List.find?_cons_of_neg (by simpa [hp] using hne)]
      · rw [List.filter_cons_of_pos (by simp [hp])]
        by_cases hk : p.1 = k
        · have hne : key ≠ k := fun h => hp (hk.trans h.symm)
          simp [hk, hne]
        · rw [List.find?_cons_of_neg (by simpa using hk), ih, List.find?_cons_of_neg (by simpa using hk)]

theorem assoc?_rebind {α : Type} (key k : String) (a : α) (pairs : List (String × α)) :
    assoc? k (rebind key a pairs) = if key = k then some a else assoc? k pairs := by
  rw [rebind, assoc?_append, assoc?_filter_ne]
  by_cases h : key = k <;> simp [assoc?, h]

variable (ctx : Context) (name key : String) (v : Value) (index : Nat) (slot : Slot)

@[simp] theorem selected?_bind :
    (ctx.bind name v).selected? slot =
      if .parameter name = slot then some (.inl v) else ctx.selected? slot := by
  cases slot with
  | parameter x =>
      simp only [selected?, lookup?, frames, bind, Frame.bind, List.findSome?_cons, assoc?_rebind,
        Slot.parameter.injEq]
      by_cases h : name = x <;> simp [h]
  | bodies _ => rw [if_neg (by simp)]; rfl
  | slice _ => rw [if_neg (by simp)]; rfl

@[simp] theorem selected?_selectBody :
    (ctx.selectBody name index).selected? slot =
      if .bodies name = slot then some (.inr index) else ctx.selected? slot := by
  cases slot with
  | parameter _ => rw [if_neg (by simp)]; rfl
  | bodies x =>
      simp only [selected?, body?, frames, selectBody, Frame.selectBody, List.findSome?_cons,
        assoc?_rebind, Slot.bodies.injEq]
      by_cases h : name = x <;> simp [h]
  | slice _ => rw [if_neg (by simp)]; rfl

@[simp] theorem selected?_selectSlice :
    (ctx.selectSlice key v).selected? slot =
      if .slice key = slot then some (.inl v) else ctx.selected? slot := by
  cases slot with
  | parameter _ => rw [if_neg (by simp)]; rfl
  | bodies _ => rw [if_neg (by simp)]; rfl
  | slice x =>
      simp only [selected?, slice?, frames, selectSlice, Frame.selectSlice, List.findSome?_cons,
        assoc?_rebind, Slot.slice.injEq]
      by_cases h : key = x <;> simp [h]

end Context

namespace Axis

/-- An axis selects for its own slot and leaves all others alone. -/
theorem selected?_select (a : Axis) (ctx : Context) (index : Nat) (slot : Slot) :
    (a.select ctx index).selected? slot =
      if a.slot = slot then (a.at? index).or (ctx.selected? slot) else ctx.selected? slot := by
  cases a with
  | parameter name values =>
      show _ = if Slot.parameter name = slot then _ else _
      simp only [select, at?]
      cases values[index]? <;> simp
  | bodies name count => exact ctx.selected?_selectBody name index slot
  | slice key values =>
      show _ = if Slot.slice key = slot then _ else _
      simp only [select, at?]
      cases values[index]? <;> simp

theorem select_symbols (a : Axis) (ctx : Context) (index : Nat) :
    (a.select ctx index).symbols = ctx.symbols ∧ (a.select ctx index).calls = ctx.calls := by
  cases a with
  | parameter name values =>
      simp only [select]
      cases values[index]? <;> exact ⟨rfl, rfl⟩
  | bodies name count => exact ⟨rfl, rfl⟩
  | slice key values =>
      simp only [select]
      cases values[index]? <;> exact ⟨rfl, rfl⟩

end Axis

/-! ## Contexts of a space -/

namespace ContextSpace

private theorem selected?_foldl_of_not_mem {slot : Slot} (pairs : List (Axis × Nat)) :
    ∀ ctx : Context, (∀ p ∈ pairs, p.1.slot ≠ slot) →
      (pairs.foldl (fun ctx p => p.1.select ctx p.2) ctx).selected? slot = ctx.selected? slot := by
  induction pairs with
  | nil => exact fun _ _ => rfl
  | cons p pairs ih =>
      intro ctx h
      rw [List.foldl_cons, ih _ fun q hq => h q (by simp [hq]), p.1.selected?_select,
        if_neg (h p (by simp))]

private theorem selected?_foldl_of_mem {a : Axis} {index : Nat} (pairs : List (Axis × Nat)) :
    ∀ ctx : Context, (pairs.map (·.1.slot)).Nodup → (a, index) ∈ pairs →
      ctx.selected? a.slot = none →
      (pairs.foldl (fun ctx p => p.1.select ctx p.2) ctx).selected? a.slot = a.at? index := by
  induction pairs with
  | nil => exact fun _ _ h => absurd h List.not_mem_nil
  | cons p pairs ih =>
      intro ctx hnodup h hctx
      rw [List.map_cons, List.nodup_cons] at hnodup
      rw [List.foldl_cons]
      rcases List.mem_cons.1 h with rfl | h
      · rw [selected?_foldl_of_not_mem pairs, a.selected?_select, if_pos rfl, hctx, Option.or_none]
        exact fun q hq he => hnodup.1 (List.mem_map.2 ⟨q, hq, he⟩)
      · have hne : p.1.slot ≠ a.slot := fun he => hnodup.1 (List.mem_map.2 ⟨_, h, he.symm⟩)
        exact ih _ hnodup.2 h (by rw [p.1.selected?_select, if_neg hne, hctx])

theorem selected?_root (symbols : SymbolTable) (slot : Slot) :
    (Context.root symbols).selected? slot = none := by
  cases slot <;> rfl

variable {space : ContextSpace} {indices : List Nat}

/-- On each axis a context selects what its index says. -/
theorem selected?_contextAt (hnodup : (space.axes.map Axis.slot).Nodup)
    (hlen : indices.length = space.axes.length) {a : Axis} {index : Nat}
    (h : (a, index) ∈ space.axes.zip indices) :
    (space.contextAt indices).selected? a.slot = a.at? index := by
  refine selected?_foldl_of_mem _ _ ?_ h (selected?_root _ _)
  have hfst := List.map_fst_zip (Nat.le_of_eq hlen.symm)
  rw [← hfst, List.map_map] at hnodup
  exact hnodup

/-- A context selects nothing where the space has no axis. -/
theorem selected?_contextAt_of_not_mem {slot : Slot} (h : slot ∉ space.axes.map Axis.slot) :
    (space.contextAt indices).selected? slot = none := by
  refine (selected?_foldl_of_not_mem _ _ fun p hp he => ?_).trans (selected?_root _ _)
  exact h (List.mem_map.2 ⟨p.1, (List.of_mem_zip hp).1, he⟩)

theorem contextAt_symbols :
    (space.contextAt indices).symbols = space.symbols ∧ (space.contextAt indices).calls = [] := by
  unfold contextAt
  suffices h : ∀ (pairs : List (Axis × Nat)) (ctx : Context),
      (pairs.foldl (fun ctx p => p.1.select ctx p.2) ctx).symbols = ctx.symbols ∧
        (pairs.foldl (fun ctx p => p.1.select ctx p.2) ctx).calls = ctx.calls from h _ _
  intro pairs
  induction pairs with
  | nil => exact fun _ => ⟨rfl, rfl⟩
  | cons p pairs ih =>
      intro ctx
      obtain ⟨hsymbols, hcalls⟩ := p.1.select_symbols ctx p.2
      exact ⟨(ih _).1.trans hsymbols, (ih _).2.trans hcalls⟩

end ContextSpace

end Variorum
