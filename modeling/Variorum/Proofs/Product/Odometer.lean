import Mathlib.Algebra.Group.Nat.Defs
import Mathlib.Data.List.Forall2
import Mathlib.Logic.Function.Iterate
import Variorum.Product.Odometer

/-!
# The odometer runs through the cartesian product

The index lists below given sizes are enumerated in lexicographic order, each once, and no other
list is shown. Behind the last of them an odometer shows nothing any more.
-/

namespace Variorum.Odometer

/-- The index lists below the sizes in lexicographic order. -/
def tuples : List Nat → List (List Nat)
  | [] => [[]]
  | size :: sizes => (List.range size).flatMap fun index => (tuples sizes).map (index :: ·)

/-- The lists are those which an odometer with these sizes shows, one after the other, until it has
run out. -/
inductive Runs (sizes : List Nat) : Option (List Nat) → List (List Nat) → Prop
  | out : Runs sizes none []
  | turn {indices next rest} : following sizes indices = next → Runs sizes next rest →
      Runs sizes (some indices) (indices :: rest)

/-! ## The product as a set -/

theorem mem_tuples {sizes indices : List Nat} :
    indices ∈ tuples sizes ↔ List.Forall₂ (· < ·) indices sizes := by
  induction sizes generalizing indices with
  | nil => simp [tuples]
  | cons size sizes ih =>
      cases indices with
      | nil => simp [tuples]
      | cons index indices => simp [tuples, ih]

theorem length_of_mem_tuples {sizes indices : List Nat} (h : indices ∈ tuples sizes) :
    indices.length = sizes.length :=
  (mem_tuples.1 h).length_eq

theorem length_tuples (sizes : List Nat) : (tuples sizes).length = product sizes := by
  have hfold : ∀ acc, sizes.foldl (· * ·) acc = acc * (tuples sizes).length := by
    induction sizes with
    | nil => simp [tuples]
    | cons size sizes ih =>
        intro acc
        rw [List.foldl_cons, ih, Nat.mul_assoc]
        simp [tuples, List.length_flatMap]
  rw [product, hfold 1, Nat.one_mul]

theorem tuples_eq_nil {sizes : List Nat} (h : 0 ∈ sizes) : tuples sizes = [] := by
  induction sizes with
  | nil => cases h
  | cons size sizes ih =>
      rcases List.mem_cons.1 h with rfl | h
      · rfl
      · simp [tuples, ih h]

theorem pairwise_tuples (sizes : List Nat) : (tuples sizes).Pairwise (· < ·) := by
  induction sizes with
  | nil => exact List.pairwise_singleton _ _
  | cons size sizes ih =>
      refine List.pairwise_flatMap.2 ⟨fun index _ => ?_, List.pairwise_lt_range.imp ?_⟩
      · exact List.pairwise_map.2 (ih.imp fun h => List.cons_lt_cons_iff.2 (.inr ⟨rfl, h⟩))
      · intro index next hlt is his js hjs
        obtain ⟨is, -, rfl⟩ := List.mem_map.1 his
        obtain ⟨js, -, rfl⟩ := List.mem_map.1 hjs
        exact List.cons_lt_cons_iff.2 (.inl hlt)

/-! ## The number of index lists -/

theorem product_eq_prod (sizes : List Nat) : product sizes = sizes.prod :=
  List.prod_eq_foldl.symm

/-- Once a product has reached the greatest word, it keeps to it until a factor is zero. -/
theorem saturatingMul_min (a size : Nat) :
    saturatingMul (min a (Integer.wordCount - 1)) size =
      min (a * size) (Integer.wordCount - 1) := by
  unfold saturatingMul
  rcases Nat.le_total a (Integer.wordCount - 1) with h | h
  · rw [Nat.min_eq_left h]
  · rw [Nat.min_eq_right h]
    rcases Nat.eq_zero_or_pos size with rfl | hsize
    · rfl
    · have hword := Nat.le_mul_of_pos_right (Integer.wordCount - 1) hsize
      rw [Nat.min_eq_right hword, Nat.min_eq_right (Nat.le_trans hword (Nat.mul_le_mul_right size h))]

theorem foldl_saturatingMul (sizes : List Nat) (a : Nat) :
    sizes.foldl saturatingMul (min a (Integer.wordCount - 1)) =
      min (sizes.foldl (· * ·) a) (Integer.wordCount - 1) := by
  induction sizes generalizing a with
  | nil => rfl
  | cons size sizes ih => rw [List.foldl_cons, saturatingMul_min, ih, List.foldl_cons]

theorem total_eq_min (sizes : List Nat) :
    total sizes = min sizes.prod (Integer.wordCount - 1) := by
  unfold total
  split
  · rename_i h
    have hzero : (tuples sizes).length = 0 := by rw [tuples_eq_nil (List.contains_iff_mem.1 h)]; rfl
    rw [← product_eq_prod, ← length_tuples, hzero, Nat.zero_min]
  · exact (foldl_saturatingMul sizes 1).trans (product_eq_prod sizes ▸ rfl)

/-! ## The run of an odometer -/

/-- An odometer after it was read. One that has run out stays as it is. -/
def advance (o : Odometer) : Odometer :=
  match o.next? with
  | some (_, o) => o
  | none => o

/-- The indices that an odometer answers when it is read for the `n`-th time, counted from zero. -/
def reading? (o : Odometer) (n : Nat) : Option (List Nat) :=
  (advance^[n] o).next?.map (·.1)

theorem Runs.reading? {sizes : List Nat} {shown : Option (List Nat)} {rest : List (List Nat)}
    (h : Runs sizes shown rest) (n : Nat) : Odometer.reading? ⟨sizes, shown⟩ n = rest[n]? := by
  induction h generalizing n with
  | out =>
      have hout : advance^[n] ⟨sizes, none⟩ = ⟨sizes, none⟩ := Function.iterate_fixed rfl n
      rw [Odometer.reading?, hout]
      rfl
  | @turn indices next rest hf _ ih =>
      cases n with
      | zero => rfl
      | succ n =>
          have hnext : advance ⟨sizes, some indices⟩ = ⟨sizes, next⟩ := by
            rw [← hf]
            rfl
          rw [Odometer.reading?, Function.iterate_succ_apply, hnext, List.getElem?_cons_succ]
          exact ih n

theorem Runs.collect {sizes : List Nat} {shown : Option (List Nat)} {rest : List (List Nat)}
    (h : Runs sizes shown rest) (seen : Array (List Nat)) :
    (Odometer.collect seen rest.length ⟨sizes, shown⟩).toList = seen.toList ++ rest := by
  induction h generalizing seen with
  | out => simp [Odometer.collect]
  | @turn indices next rest hf _ ih =>
      simp [Odometer.collect, next?, hf, ih]

/-- While the first wheel stands, the others run as they do alone; then the first one turns. -/
theorem Runs.cons {size index : Nat} {sizes : List Nat} {next : Option (List Nat)}
    {shown rest : List (List Nat)} (h : Runs sizes next shown) (hne : shown ≠ [])
    (hlen : ∀ indices ∈ shown, indices.length = sizes.length)
    (hrest : Runs (size :: sizes)
      (if index + 1 < size then some ((index + 1) :: sizes.map fun _ => 0) else none) rest) :
    Runs (size :: sizes) (next.map (index :: ·)) (shown.map (index :: ·) ++ rest) := by
  induction h with
  | out => exact absurd rfl hne
  | @turn indices next shown hf h ih =>
      have hzero : (indices.map fun _ => 0) = sizes.map fun _ => 0 := by
        simp [List.map_const', hlen indices (by simp)]
      cases h with
      | out => exact .turn (by simp [following, hf, hzero]) hrest
      | turn hf' h =>
          refine .turn (by simp [following, hf]) (ih (by simp) fun i hi => hlen i ?_)
          exact List.mem_cons_of_mem _ hi

/-- From its first indices on, an odometer shows the lexicographic list. -/
theorem runs_tuples {sizes : List Nat} (h : 0 ∉ sizes) :
    Runs sizes (some (sizes.map fun _ => 0)) (tuples sizes) := by
  induction sizes with
  | nil => exact .turn rfl .out
  | cons size sizes ih =>
      have hrun := ih fun h0 => h (by simp [h0])
      have hne : tuples sizes ≠ [] := by
        intro h0
        rw [h0] at hrun
        cases hrun
      -- The wheel has still `k` indices before it, of which the first is shown next.
      have hwheel : ∀ k index, index + k = size →
          Runs (size :: sizes)
            (if index < size then some (index :: sizes.map fun _ => 0) else none)
            ((List.range' index k).flatMap fun i => (tuples sizes).map (i :: ·)) := by
        intro k
        induction k with
        | zero =>
            intro index hk
            simpa [show ¬index < size by omega] using Runs.out
        | succ k ihk =>
            intro index hk
            rw [if_pos (by omega), List.range'_succ, List.flatMap_cons]
            exact hrun.cons hne (fun _ => length_of_mem_tuples) (ihk (index + 1) (by omega))
      have hsize : 0 < size := Nat.pos_of_ne_zero fun h0 => h (by simp [h0])
      simpa [tuples, List.range_eq_range', hsize] using hwheel size 0 (by simp)

/-- All index lists below the sizes are shown, in lexicographic order. -/
theorem all_eq_tuples (sizes : List Nat) : all sizes = tuples sizes := by
  by_cases h : 0 ∈ sizes
  · simp [all, take, collect, ← length_tuples, tuples_eq_nil h]
  · have hstart : start sizes = ⟨sizes, some (sizes.map fun _ => 0)⟩ := by simp [start, h]
    rw [all, take, hstart, ← length_tuples]
    simpa using (runs_tuples h).collect #[]

theorem mem_all {sizes indices : List Nat} :
    indices ∈ all sizes ↔ List.Forall₂ (· < ·) indices sizes := by
  rw [all_eq_tuples, mem_tuples]

theorem runs_start (sizes : List Nat) : Runs sizes (start sizes).shown (tuples sizes) := by
  by_cases h : 0 ∈ sizes
  · rw [tuples_eq_nil h, start, if_pos (List.contains_iff_mem.2 h)]
    exact .out
  · rw [start, if_neg (by simpa using h)]
    exact runs_tuples h

/-- Read time and again, an odometer shows all index lists below its sizes, each before those that are
greater, and then nothing. There are as many of them as the product of the sizes says, and their number
is known if it is a machine word. -/
theorem start_enumerates (sizes : List Nat) :
    (∀ n, (start sizes).reading? n = (all sizes)[n]?) ∧
      (∀ indices, indices ∈ all sizes ↔ List.Forall₂ (· < ·) indices sizes) ∧
      (all sizes).Pairwise (· < ·) ∧ (all sizes).length = sizes.prod ∧
      total sizes = min sizes.prod (Integer.wordCount - 1) := by
  refine ⟨fun n => ?_, fun indices => mem_all, ?_, ?_, total_eq_min sizes⟩
  · rw [all_eq_tuples]
    exact (runs_start sizes).reading? n
  · rw [all_eq_tuples]
    exact pairwise_tuples sizes
  · rw [all_eq_tuples, length_tuples, product_eq_prod]

end Variorum.Odometer
