import Variorum.Library.Math
import Variorum.Proofs.Binary64.Conversion
import Variorum.Proofs.Integer

/-!
# The least and the greatest of integers

The extremes are found by comparing floats, and the first of several arguments that are the same float is
kept. So they are exact where no two arguments are, and above all for integers of fifty-three bits.
-/

namespace Variorum.Library

/-! ## First elements of least key -/

section

open scoped Std.OppositeOrderInstances

variable {α β : Type} [DecidableEq α] [LE β] [DecidableLE β] [Std.IsLinearOrder β]
variable {key : α → β} {m : α}

/-- An element of least key is found unless one with the same key comes before it. -/
theorem minOn_eq_iff {l : List α} (h : l ≠ []) (hmem : m ∈ l) (hleast : ∀ a ∈ l, key m ≤ key a) :
    l.minOn key h = m ↔ ∀ a ∈ l.takeWhile (· != m), key a ≠ key m := by
  induction l with
  | nil => exact absurd rfl h
  | cons a l ih =>
      by_cases ha : a = m
      · subst ha
        rw [List.takeWhile_cons_of_neg (by simp)]
        exact iff_of_true (List.minOn_eq_head h hleast) (List.forall_mem_nil _)
      · have hmem' : m ∈ l := List.mem_of_ne_of_mem (Ne.symm ha) hmem
        have hl : l ≠ [] := List.ne_nil_of_mem hmem'
        have hrest := ih hl hmem' fun b hb => hleast b (List.mem_cons_of_mem a hb)
        have hle : key (l.minOn key hl) ≤ key m := List.apply_minOn_le_of_mem hmem'
        rw [List.takeWhile_cons_of_pos (by simpa using ha), List.forall_mem_cons, List.minOn_cons,
          dif_neg hl, ← hrest]
        by_cases hkey : key a = key m
        · have hfirst : key a ≤ key (l.minOn key hl) :=
            hkey ▸ hleast _ (List.mem_cons_of_mem a List.minOn_mem)
          rw [minOn_eq_left hfirst]
          exact iff_of_false ha fun hall => hall.1 hkey
        · have hlater : ¬key a ≤ key (l.minOn key hl) := fun hfirst =>
            hkey (Std.le_antisymm (Std.le_trans hfirst hle) (hleast a List.mem_cons_self))
          rw [minOn_eq_right hlater, and_iff_right hkey]

theorem maxOn_eq_iff {l : List α} (h : l ≠ []) (hmem : m ∈ l) (hgreatest : ∀ a ∈ l, key a ≤ key m) :
    l.maxOn key h = m ↔ ∀ a ∈ l.takeWhile (· != m), key a ≠ key m := by
  rw [List.maxOn_eq_minOn]
  let _ : LE β := LE.opposite inferInstance
  exact minOn_eq_iff h hmem fun a ha => LE.le_opposite_iff.2 (hgreatest a ha)

end

/-! ## Extremes -/

/-- The integer that an argument is compared as. -/
def rank (i : Int64) : Int :=
  Binary64.nearest i.toInt

theorem rank_mono {i j : Int64} (h : i.toInt ≤ j.toInt) : rank i ≤ rank j :=
  Binary64.nearest_mono h

theorem rank_of_natAbs_lt {i : Int64} (h : i.toInt.natAbs < 2 ^ 53) : rank i = i.toInt :=
  Binary64.nearest_of_natAbs_lt h

theorem ofInt_le_ofInt_iff {i j : Int64} :
    Float.ofInt i.toInt ≤ Float.ofInt j.toInt ↔ rank i ≤ rank j := by
  have hi := Integer.inRange_toInt i
  have hj := Integer.inRange_toInt j
  unfold Integer.InRange at hi hj
  exact Binary64.ofInt_le_ofInt (by omega) (by omega)

section

variable {function : String} {keeps : Float → Float → Bool} {better : Int64 → Int64 → Int64}

/-- Of integers one argument after the other takes the place of the best so far, or does not. -/
theorem bestOf_integers
    (hbetter : ∀ i j, (if keeps (Float.ofInt i.toInt) (Float.ofInt j.toInt) then i else j) = better i j)
    (i : Int64) (is : List Int64) :
    bestOf function keeps (.integer i) (is.map .integer) = .ok (.integer (is.foldl better i)) := by
  induction is generalizing i with
  | nil => rfl
  | cons j is ih =>
      rw [List.map_cons, List.foldl_cons, ← hbetter, ← ih, apply_ite Value.integer]
      rfl

theorem applyExtremum_integers
    (hbetter : ∀ i j, (if keeps (Float.ofInt i.toInt) (Float.ofInt j.toInt) then i else j) = better i j)
    (i : Int64) (is : List Int64) :
    applyExtremum function keeps ((i :: is).map .integer) = .ok (.integer (is.foldl better i)) := by
  have hfloats : ((i :: is).map Value.integer).any (·.asInteger?.isNone) = false := by
    rw [List.any_map]
    exact List.any_eq_false.2 fun _ _ => Bool.false_ne_true
  show (bestOf function keeps (.integer i) (is.map .integer) >>= _) = _
  rw [bestOf_integers hbetter]
  show (if _ then _ else _) = _
  rw [← List.map_cons, hfloats]
  rfl

end

variable {is : List Int64}

theorem min_integers (h : is ≠ []) : min.apply (is.map .integer) = .ok (.integer (is.minOn rank h)) := by
  cases is with
  | nil => exact absurd rfl h
  | cons i is =>
      refine applyExtremum_integers (fun i j => ?_) i is
      simp only [decide_eq_true_iff, ofInt_le_ofInt_iff]
      rfl

theorem max_integers (h : is ≠ []) : max.apply (is.map .integer) = .ok (.integer (is.maxOn rank h)) := by
  cases is with
  | nil => exact absurd rfl h
  | cons i is =>
      refine applyExtremum_integers (fun i j => ?_) i is
      simp only [decide_eq_true_iff, ofInt_le_ofInt_iff]
      exact maxOn_eq_if.symm

/-- The least integer is found unless another one before it is the same float. -/
theorem min_exact_iff (h : is ≠ []) :
    min.apply (is.map .integer) = .ok (.integer (is.minOn Int64.toInt h)) ↔
      ∀ i ∈ is.takeWhile (· != is.minOn Int64.toInt h), rank i ≠ rank (is.minOn Int64.toInt h) := by
  rw [min_integers h, Except.ok.injEq, Value.integer.injEq]
  exact minOn_eq_iff h List.minOn_mem fun i hi => rank_mono (List.apply_minOn_le_of_mem hi)

theorem max_exact_iff (h : is ≠ []) :
    max.apply (is.map .integer) = .ok (.integer (is.maxOn Int64.toInt h)) ↔
      ∀ i ∈ is.takeWhile (· != is.maxOn Int64.toInt h), rank i ≠ rank (is.maxOn Int64.toInt h) := by
  rw [max_integers h, Except.ok.injEq, Value.integer.injEq]
  exact maxOn_eq_iff h List.maxOn_mem fun i hi => rank_mono (List.le_apply_maxOn_of_mem hi)

/-- Integers of fifty-three bits are compared exactly. -/
theorem min_max_of_natAbs_lt (h : is ≠ []) (hbits : ∀ i ∈ is, i.toInt.natAbs < 2 ^ 53) :
    min.apply (is.map .integer) = .ok (.integer (is.minOn Int64.toInt h)) ∧
      max.apply (is.map .integer) = .ok (.integer (is.maxOn Int64.toInt h)) := by
  have hrank : ∀ m ∈ is, ∀ i ∈ is.takeWhile (· != m), rank i ≠ rank m := by
    intro m hm i hi heq
    have hmem := (List.takeWhile_sublist _).subset hi
    have hne : i ≠ m := by simpa using List.all_eq_true.1 List.all_takeWhile i hi
    rw [rank_of_natAbs_lt (hbits i hmem), rank_of_natAbs_lt (hbits m hm)] at heq
    exact hne (Int64.toInt_inj.1 heq)
  exact ⟨(min_exact_iff h).2 (hrank _ List.minOn_mem), (max_exact_iff h).2 (hrank _ List.maxOn_mem)⟩

/-- Of integers, `min` and `max` return the first one whose float is the least or the greatest. That is the
least or the greatest of them unless another argument before it is the same float. -/
theorem min_max_exact (is : List Int64) (h : is ≠ []) :
    (min.apply (is.map .integer) = .ok (.integer (is.minOn rank h)) ∧
      (min.apply (is.map .integer) = .ok (.integer (is.minOn Int64.toInt h)) ↔
        ∀ i ∈ is.takeWhile (· != is.minOn Int64.toInt h), rank i ≠ rank (is.minOn Int64.toInt h))) ∧
    (max.apply (is.map .integer) = .ok (.integer (is.maxOn rank h)) ∧
      (max.apply (is.map .integer) = .ok (.integer (is.maxOn Int64.toInt h)) ↔
        ∀ i ∈ is.takeWhile (· != is.maxOn Int64.toInt h), rank i ≠ rank (is.maxOn Int64.toInt h))) :=
  ⟨⟨min_integers h, min_exact_iff h⟩, max_integers h, max_exact_iff h⟩

/-- Of two integers that are the same float the first is both extremes. -/
theorem min_max_exact_ties :
    [9007199254740992, 9007199254740993] ≠ ([] : List Int64) ∧
      min.apply [.integer 9007199254740992, .integer 9007199254740993] =
        .ok (.integer 9007199254740992) ∧
      max.apply [.integer 9007199254740992, .integer 9007199254740993] =
        .ok (.integer 9007199254740992) := by
  have h : [9007199254740992, 9007199254740993] ≠ ([] : List Int64) := nofun
  exact ⟨h, (min_max_exact _ h).1.1, (min_max_exact _ h).2.1⟩

theorem min_not_least :
    min.apply [.integer 9007199254740993, .integer 9007199254740992] =
        .ok (.integer 9007199254740993) ∧
      (9007199254740992 : Int64) < 9007199254740993 := by
  have h : [9007199254740993, 9007199254740992] ≠ ([] : List Int64) := nofun
  exact ⟨min_integers h, by decide⟩

end Variorum.Library
