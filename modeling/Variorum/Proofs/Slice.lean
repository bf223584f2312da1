import Variorum.Integer
import Variorum.Slice

/-!
# Slices walk by steps

A slice reads the elements at the indices that a walk visits: it goes on by the step as long as it has
not come to its end. The walk stays inside the list, and a hundred and twenty-eight bits are enough for
every number in it.
-/

namespace Variorum.Slice

/-! ## Bounds -/

/-- The least index that a bound is moved to. A walk down ends before the first element. -/
def lowest (step : Int) : Int :=
  if step < 0 then -1 else 0

/-- The greatest index that a bound is moved to. A walk up ends behind the last element. -/
def highest (len step : Int) : Int :=
  len + lowest step

/-- The index of a bound. One below zero counts from the end, and one that is too low or too high is
moved. -/
def adjust (len step bound : Int) : Int :=
  if bound < 0 then
    if bound + len < lowest step then lowest step else bound + len
  else if highest len step < bound then highest len step else bound

/-- Where a walk starts. Without a bound it does so at the end that it goes away from. -/
def first (len step : Int) : Option Int → Int
  | none => if step < 0 then highest len step else lowest step
  | some bound => adjust len step bound

/-- Where a walk stops. Without a bound it does so at the end that it goes to. -/
def last (len step : Int) : Option Int → Int
  | none => if step < 0 then lowest step else highest len step
  | some bound => adjust len step bound

variable {α : Type} {start stop : Option Int} {len low high step i hi : Int} {is : List Int}

theorem lowest_up (h : 0 < step) : lowest step = 0 :=
  if_neg (by omega)

theorem lowest_down (h : step < 0) : lowest step = -1 :=
  if_pos h

theorem clampBound_up (hlen : 0 ≤ len) (h : 0 < step) (bound : Int) :
    clampBound len 0 len bound = adjust len step bound := by
  simp only [clampBound, adjust, highest, lowest_up h]
  split <;> omega

theorem clampBound_down (hlen : 0 ≤ len) (h : step < 0) (bound : Int) :
    clampBound len (-1) (len - 1) bound = adjust len step bound := by
  simp only [clampBound, adjust, highest, lowest_down h]
  split <;> omega

theorem startIndex_eq_first (hlen : 0 ≤ len) (hstep : step ≠ 0) :
    startIndex len step start = first len step start := by
  rcases Int.lt_or_gt_of_ne hstep with hdown | hup
  · have hnot : ¬0 < step := by omega
    cases start with
    | none =>
        simp only [startIndex, first, highest, lowest_down hdown, if_neg hnot, if_pos hdown]
        omega
    | some bound => simp only [startIndex, first, if_neg hnot, clampBound_down hlen hdown]
  · have hnot : ¬step < 0 := by omega
    cases start with
    | none => simp only [startIndex, first, lowest_up hup, if_pos hup, if_neg hnot]
    | some bound => simp only [startIndex, first, if_pos hup, clampBound_up hlen hup]

theorem stopIndex_eq_last (hlen : 0 ≤ len) (hstep : step ≠ 0) :
    stopIndex len step stop = last len step stop := by
  rcases Int.lt_or_gt_of_ne hstep with hdown | hup
  · have hnot : ¬0 < step := by omega
    cases stop with
    | none => simp only [stopIndex, last, lowest_down hdown, if_neg hnot, if_pos hdown]
    | some bound => simp only [stopIndex, last, if_neg hnot, clampBound_down hlen hdown]
  · have hnot : ¬step < 0 := by omega
    cases stop with
    | none =>
        simp only [stopIndex, last, highest, lowest_up hup, if_pos hup, if_neg hnot]
        omega
    | some bound => simp only [stopIndex, last, if_pos hup, clampBound_up hlen hup]

theorem lowest_le_highest (hlen : 0 ≤ len) : lowest step ≤ highest len step := by
  unfold highest
  omega

theorem adjust_range (hlen : 0 ≤ len) (bound : Int) :
    lowest step ≤ adjust len step bound ∧ adjust len step bound ≤ highest len step := by
  have hle : -1 ≤ lowest step ∧ lowest step ≤ 0 := by
    unfold lowest
    split <;> omega
  unfold adjust highest
  split <;> split <;> omega

theorem first_range (step : Int) (start : Option Int) (hlen : 0 ≤ len) :
    lowest step ≤ first len step start ∧ first len step start ≤ highest len step := by
  have hle : lowest step ≤ highest len step := lowest_le_highest hlen
  cases start with
  | none =>
      simp only [first]
      split <;> omega
  | some bound => exact adjust_range hlen bound

theorem last_range (step : Int) (stop : Option Int) (hlen : 0 ≤ len) :
    lowest step ≤ last len step stop ∧ last len step stop ≤ highest len step := by
  have hle : lowest step ≤ highest len step := lowest_le_highest hlen
  cases stop with
  | none =>
      simp only [last]
      split <;> omega
  | some bound => exact adjust_range hlen bound

/-! ## Walks -/

/-- A walk by `step` has not come to `hi` yet: it is below on the way up, and above on the way down. -/
def Before (step hi i : Int) : Prop :=
  (0 < step ∧ i < hi) ∨ (step < 0 ∧ hi < i)

/-- The indices that a walk visits from one index on. -/
inductive Walks (step hi : Int) : Int → List Int → Prop
  | done {j} : ¬Before step hi j → Walks step hi j []
  | next {j js} : Before step hi j → Walks step hi (j + step) js → Walks step hi j (j :: js)

theorem stepCount_before (h : Before step hi i) :
    stepCount i hi step = stepCount (i + step) hi step + 1 := by
  rcases h with ⟨hup, hlt⟩ | ⟨hdown, hgt⟩
  · have hsplit : hi - i + step - 1 = (hi - (i + step) + step - 1) + 1 * step := by omega
    have hnonneg : 0 ≤ (hi - (i + step) + step - 1) / step := Int.ediv_nonneg (by omega) (by omega)
    simp only [stepCount, if_pos hup]
    rw [hsplit, Int.add_mul_ediv_right _ _ (by omega)]
    omega
  · have hnot : ¬0 < step := by omega
    have hsplit : i - hi - step - 1 = (i + step - hi - step - 1) + 1 * -step := by omega
    have hnonneg : 0 ≤ (i + step - hi - step - 1) / -step := Int.ediv_nonneg (by omega) (by omega)
    simp only [stepCount, if_neg hnot]
    rw [hsplit, Int.add_mul_ediv_right _ _ (by omega)]
    omega

theorem stepCount_not_before (hstep : step ≠ 0) (h : ¬Before step hi i) : stepCount i hi step = 0 := by
  rcases Int.lt_or_gt_of_ne hstep with hdown | hup
  · have hle : i ≤ hi := Int.not_lt.1 fun hlt => h (.inr ⟨hdown, hlt⟩)
    have hlt : (i - hi - step - 1) / -step < 1 := Int.ediv_lt_of_lt_mul (by omega) (by omega)
    rw [stepCount, if_neg (by omega)]
    omega
  · have hle : hi ≤ i := Int.not_lt.1 fun hlt => h (.inl ⟨hup, hlt⟩)
    have hlt : (hi - i + step - 1) / step < 1 := Int.ediv_lt_of_lt_mul (by omega) (by omega)
    rw [stepCount, if_pos hup]
    omega

/-- As many steps as are counted lead to the end of the walk. -/
theorem walks_range (hstep : step ≠ 0) {n : Nat} (h : stepCount i hi step = n) :
    Walks step hi i ((List.range n).map fun (k : Nat) => i + k * step) := by
  induction n generalizing i with
  | zero =>
      refine .done fun hbefore => ?_
      rw [stepCount_before hbefore] at h
      cases h
  | succ n ih =>
      have hbefore : Before step hi i := by
        refine Classical.byContradiction fun hnot => ?_
        rw [stepCount_not_before hstep hnot] at h
        cases h
      have hrest : stepCount (i + step) hi step = n := by
        rw [stepCount_before hbefore] at h
        exact Nat.succ.inj h
      have hzero : i + ((0 : Nat) : Int) * step = i := by simp
      have hsucc : ((fun (k : Nat) => i + k * step) ∘ Nat.succ) = fun (k : Nat) => i + step + k * step := by
        funext k
        simp only [Function.comp, Nat.succ_eq_add_one, Int.natCast_add, Int.natCast_one, Int.add_mul,
          Int.one_mul]
        omega
      rw [List.range_succ_eq_map, List.map_cons, List.map_map, hzero, hsucc]
      exact .next hbefore (ih hrest)

/-- A walk reads no element outside the list, if it starts and stops where it may. -/
theorem Walks.inside (h : Walks step hi i is) (hstart : 0 < step → 0 ≤ i)
    (hstart' : step < 0 → i < len) (hstop : 0 < step → hi ≤ len) (hstop' : step < 0 → -1 ≤ hi) :
    ∀ j ∈ is, 0 ≤ j ∧ j < len := by
  induction h with
  | done _ => exact fun _ h => nomatch h
  | @next j js hbefore _ ih =>
      have hj : 0 ≤ j ∧ j < len := by
        rcases hbefore with ⟨hup, hlt⟩ | ⟨hdown, hgt⟩
        · exact ⟨hstart hup, Int.lt_of_lt_of_le hlt (hstop hup)⟩
        · have hlow := hstop' hdown
          exact ⟨by omega, hstart' hdown⟩
      have hjs : ∀ k ∈ js, 0 ≤ k ∧ k < len := ih (fun hup => by omega) fun hdown => by omega
      exact List.forall_mem_cons.2 ⟨hj, hjs⟩

/-! ## Elements -/

/-- What a slice reads by a step: the elements at the indices of a walk between its bounds. -/
structure Reads (xs : List α) (start stop : Option Int) (step : Int) (is : List Int) (ys : List α) :
    Prop where
  walks : Walks step (last xs.length step stop) (first xs.length step start) is
  inside : ∀ i ∈ is, 0 ≤ i ∧ i < xs.length
  elements : is.map (fun i => xs[i.toNat]?) = ys.map some

theorem map_some_filterMap {f : Int → Option α} (is : List Int) (h : ∀ i ∈ is, ∃ x, f i = some x) :
    (is.filterMap f).map some = is.map f := by
  induction is with
  | nil => rfl
  | cons i is ih =>
      obtain ⟨x, hx⟩ := h i (by simp)
      rw [List.filterMap_cons_some hx, List.map_cons, List.map_cons, hx,
        ih fun j hj => h j (by simp [hj])]

theorem indices_inside (hlen : 0 ≤ len)
    (h : Walks step (last len step stop) (first len step start) is) : ∀ i ∈ is, 0 ≤ i ∧ i < len := by
  obtain ⟨hfirst, hfirst'⟩ := first_range step start hlen
  obtain ⟨hlast, hlast'⟩ := last_range step stop hlen
  unfold highest at hfirst' hlast'
  refine h.inside ?_ ?_ ?_ ?_
  · intro hup
    rwa [lowest_up hup] at hfirst
  · intro hdown
    rw [lowest_down hdown] at hfirst'
    omega
  · intro hup
    rwa [lowest_up hup, Int.add_zero] at hlast'
  · intro hdown
    rwa [lowest_down hdown] at hlast

theorem select_reads (xs : List α) (start stop : Option Int) (hstep : step ≠ 0) :
    ∃ ys, select xs start stop step = .ok ys ∧
      Reads xs start stop step (indices xs.length start stop step) ys := by
  have hlen : (0 : Int) ≤ xs.length := Int.natCast_nonneg _
  have hwalks : Walks step (last xs.length step stop) (first xs.length step start)
      (indices xs.length start stop step) := by
    unfold indices
    rw [startIndex_eq_first hlen hstep, stopIndex_eq_last hlen hstep]
    exact walks_range hstep rfl
  have hinside := indices_inside hlen hwalks
  have helements : ∀ i ∈ indices xs.length start stop step, ∃ x, xs[i.toNat]? = some x := by
    intro i hi
    have hrange := hinside i hi
    exact ⟨_, List.getElem?_eq_getElem (by omega)⟩
  refine ⟨_, ?_, hwalks, hinside, (map_some_filterMap _ helements).symm⟩
  rw [select, if_neg hstep]
  simp

/-! ## The loop in machine numbers -/

/-- The integers that fit a hundred and twenty-eight bits with a sign. -/
def Wide (n : Int) : Prop :=
  -0x80000000000000000000000000000000 ≤ n ∧ n < 0x80000000000000000000000000000000

instance (n : Int) : Decidable (Wide n) :=
  inferInstanceAs (Decidable (_ ∧ _))

instance (step hi i : Int) : Decidable (Before step hi i) :=
  inferInstanceAs (Decidable (_ ∨ _))

/-- A sum, if it is not too wide. -/
def sum? (m n : Int) : Option Int :=
  if Wide (m + n) then some (m + n) else none

/-- The index of a bound, or of a missing one, between the least and the greatest allowed. -/
def bound? (len low high missing : Int) : Option Int → Option Int
  | none => some missing
  | some bound => (if bound < 0 then sum? bound len else some bound).map fun b => max low (min high b)

/-- Where the loop starts, given the last index of the list. -/
def loopStart? (len top step : Int) (start : Option Int) : Option Int :=
  if 0 < step then bound? len 0 len 0 start else bound? len (-1) top top start

/-- Where the loop stops, given the last index of the list. -/
def loopStop? (len top step : Int) (stop : Option Int) : Option Int :=
  if 0 < step then bound? len 0 len len stop else bound? len (-1) top (-1) stop

/-- How far a walk is from its end. -/
def distance (step hi i : Int) : Nat :=
  if 0 < step then (hi - i).toNat else (i - hi).toNat

theorem distance_lt (h : Before step hi i) : distance step hi (i + step) < distance step hi i := by
  unfold distance
  rcases h with ⟨hup, hlt⟩ | ⟨hdown, hgt⟩
  · rw [if_pos hup, if_pos hup]
    omega
  · have hnot : ¬0 < step := by omega
    rw [if_neg hnot, if_neg hnot]
    omega

/-- The elements that the loop collects from an index on. It has none to give if it reads outside the
list or an index becomes too wide. -/
def collect? (xs : List α) (step hi i : Int) : Option (List α) :=
  if _h : Before step hi i then
    if 0 ≤ i ∧ Wide (i + step) then
      match xs[i.toNat]? with
      | some x => (collect? xs step hi (i + step)).map (x :: ·)
      | none => none
    else none
  else some []
termination_by distance step hi i
decreasing_by exact distance_lt _h

/-- A slice as the loop takes it, in machine numbers. -/
def loop? (xs : List α) (start stop : Option Int) (step : Int) : Option (Except Failure (List α)) :=
  if step = 0 then some (.error zeroStep)
  else if xs.isEmpty then some (.ok [])
  else do
    let top ← sum? xs.length (-1)
    let first ← loopStart? xs.length top step start
    let last ← loopStop? xs.length top step stop
    return .ok (← collect? xs step last first)

theorem bound?_some {missing bound : Int} (h : Wide (bound + len)) :
    bound? len low high missing (some bound) = some (clampBound len low high bound) := by
  simp only [bound?, clampBound, sum?, if_pos h]
  split <;> rfl

theorem loopStart?_eq (h : ∀ b ∈ start, Wide (b + len)) :
    loopStart? len (len - 1) step start = some (startIndex len step start) := by
  cases start with
  | none =>
      simp only [loopStart?, bound?, startIndex]
      split <;> rfl
  | some b =>
      simp only [loopStart?, bound?_some (h b rfl), startIndex]
      split <;> rfl

theorem loopStop?_eq (h : ∀ b ∈ stop, Wide (b + len)) :
    loopStop? len (len - 1) step stop = some (stopIndex len step stop) := by
  cases stop with
  | none =>
      simp only [loopStop?, bound?, stopIndex]
      split <;> rfl
  | some b =>
      simp only [loopStop?, bound?_some (h b rfl), stopIndex]
      split <;> rfl

theorem collect?_of_walks {xs ys : List α} (h : Walks step hi i is)
    (hsums : ∀ j ∈ is, 0 ≤ j ∧ Wide (j + step))
    (helements : is.map (fun i => xs[i.toNat]?) = ys.map some) : collect? xs step hi i = some ys := by
  induction h generalizing ys with
  | done hend =>
      rw [collect?, dif_neg hend]
      cases ys with
      | nil => rfl
      | cons y ys => cases helements
  | @next j js hbefore _ ih =>
      cases ys with
      | nil => cases helements
      | cons y ys =>
          obtain ⟨hy, hys⟩ : xs[j.toNat]? = some y ∧ _ := List.cons.inj helements
          obtain ⟨hj, hjs⟩ := List.forall_mem_cons.1 hsums
          rw [collect?, dif_pos hbefore, if_pos hj]
          simp only [hy, ih hjs hys, Option.map_some]

theorem wide_add {m n : Int} (hm : -0x10000000000000000 ≤ m ∧ m < 0x10000000000000000)
    (hn : -0x10000000000000000 ≤ n ∧ n < 0x10000000000000000) : Wide (m + n) := by
  unfold Wide
  omega

/-- On a list of a machine the loop comes to what the slice selects. -/
theorem loop?_eq_select (xs : List α) (start stop : Option Int64) (step : Int64)
    (hlength : xs.length < Integer.wordCount) :
    loop? xs (start.map (·.toInt)) (stop.map (·.toInt)) step.toInt =
      some (select xs (start.map (·.toInt)) (stop.map (·.toInt)) step.toInt) := by
  have hword : ∀ i : Int64, -0x10000000000000000 ≤ i.toInt ∧ i.toInt < 0x10000000000000000 := by
    intro i
    have hlow := i.le_toInt
    have hhigh := i.toInt_lt
    omega
  have hlen : (-0x10000000000000000 : Int) ≤ xs.length ∧ (xs.length : Int) < 0x10000000000000000 := by
    unfold Integer.wordCount at hlength
    omega
  have hbound : ∀ bound : Option Int64, ∀ b ∈ bound.map (·.toInt), Wide (b + xs.length) := by
    rintro (_ | bound) b ⟨⟩
    exact wide_add (hword bound) hlen
  unfold loop?
  by_cases hstep : step.toInt = 0
  · rw [if_pos hstep, select, if_pos hstep]
  obtain ⟨ys, hselect, hwalks, hinside, helements⟩ :=
    select_reads xs (start.map (·.toInt)) (stop.map (·.toInt)) hstep
  rw [if_neg hstep, hselect]
  by_cases hempty : xs = []
  · subst hempty
    have hnone : indices ([] : List α).length (start.map (·.toInt)) (stop.map (·.toInt)) step.toInt = [] := by
      refine List.eq_nil_iff_forall_not_mem.2 fun i hi => ?_
      obtain ⟨hlow, hhigh⟩ := hinside i hi
      simp only [List.length_nil] at hhigh
      omega
    rw [hnone] at helements
    cases ys with
    | nil => rfl
    | cons y ys => cases helements
  · rw [if_neg (by simpa using hempty)]
    have hsums : ∀ i ∈ indices xs.length (start.map (·.toInt)) (stop.map (·.toInt)) step.toInt,
        0 ≤ i ∧ Wide (i + step.toInt) := by
      intro i hi
      obtain ⟨hlow, hhigh⟩ := hinside i hi
      exact ⟨hlow, wide_add (by omega) (hword step)⟩
    have htop : sum? xs.length (-1) = some ((xs.length : Int) - 1) :=
      if_pos (wide_add hlen ⟨by omega, by omega⟩)
    simp only [htop, loopStart?_eq (hbound start), loopStop?_eq (hbound stop),
      startIndex_eq_first (Int.natCast_nonneg _) hstep, stopIndex_eq_last (Int.natCast_nonneg _) hstep,
      collect?_of_walks hwalks hsums helements, Option.bind_eq_bind, Option.bind_some]
    rfl

/-- A slice is refused if its step is zero, and only then. With another step it reads the elements of a
walk. For a list of a machine the loop comes to the same: it ends, and neither reads outside the list nor
needs a number that is too wide. -/
theorem select_walks (xs : List α) (start stop : Option Int64) (step : Int64) :
    (select xs (start.map (·.toInt)) (stop.map (·.toInt)) step.toInt =
        .error (.invalidArgument "slice step cannot be zero") ↔ step = 0) ∧
      (step = 0 ∨ ∃ is ys, select xs (start.map (·.toInt)) (stop.map (·.toInt)) step.toInt = .ok ys ∧
        Reads xs (start.map (·.toInt)) (stop.map (·.toInt)) step.toInt is ys) ∧
      (xs.length < Integer.wordCount →
        loop? xs (start.map (·.toInt)) (stop.map (·.toInt)) step.toInt =
          some (select xs (start.map (·.toInt)) (stop.map (·.toInt)) step.toInt)) := by
  have hzero : step = 0 ↔ step.toInt = 0 := by
    rw [← Int64.toInt_inj]
    rfl
  refine ⟨?_, ?_, loop?_eq_select xs start stop step⟩
  · rw [hzero]
    constructor
    · intro hrefused
      refine Classical.byContradiction fun hstep => ?_
      obtain ⟨ys, hselect, -⟩ :=
        select_reads xs (start.map (·.toInt)) (stop.map (·.toInt)) hstep
      cases hselect.symm.trans hrefused
    · intro hstep
      rw [select, if_pos hstep]
      rfl
  · by_cases hstep : step.toInt = 0
    · exact .inl (hzero.2 hstep)
    · obtain ⟨ys, hselect, hreads⟩ :=
        select_reads xs (start.map (·.toInt)) (stop.map (·.toInt)) hstep
      exact .inr ⟨_, ys, hselect, hreads⟩

/-- The widest bounds and the greatest step select the first element alone. -/
theorem select_walks_widest :
    ['a', 'b', 'c'].length < Integer.wordCount ∧
      loop? ['a', 'b', 'c'] ((some Int64.minValue).map (·.toInt)) ((some Int64.maxValue).map (·.toInt))
        Int64.maxValue.toInt = some (.ok ['a']) := by
  have hlength : ['a', 'b', 'c'].length < Integer.wordCount := by decide
  refine ⟨hlength, ?_⟩
  rw [(select_walks ['a', 'b', 'c'] (some Int64.minValue) (some Int64.maxValue) Int64.maxValue).2.2 hlength]
  rfl

end Variorum.Slice
