import Mathlib.Data.List.Basic
import Variorum.Proofs.Symbols.WellFormed

/-!
# Joining lists by name

Two lists of declarations are joined name by name: what both declare is joined at its first place, and what
only the second declares comes behind the first. Values are joined as lists in which an equal one is not
repeated.
-/

namespace Variorum

/-! ## Unions of lists -/

namespace SymbolTable

section

variable {α : Type} [BEq α] {xs ys zs : List α} {y z : α}

theorem union_append : union xs (ys ++ zs) = union (union xs ys) zs :=
  List.foldl_append

theorem union_cons : union xs (y :: ys) = union (if xs.contains y then xs else xs ++ [y]) ys :=
  rfl

theorem union_eq_left (h : ∀ y ∈ ys, xs.contains y = true) : union xs ys = xs := by
  induction ys with
  | nil => rfl
  | cons y ys ih =>
      obtain ⟨hy, hys⟩ := List.forall_mem_cons.1 h
      rw [union_cons, if_pos hy, ih hys]

theorem union_self (h : ∀ x ∈ xs, (x == x) = true) : union xs xs = xs :=
  union_eq_left fun x hx => List.contains_iff_exists_mem_beq.2 ⟨x, hx, h x hx⟩

variable [PartialEquivBEq α]

theorem contains_of_beq (h : (z == y) = true) (hy : xs.contains y = true) : xs.contains z = true := by
  obtain ⟨x, hx, hyx⟩ := List.contains_iff_exists_mem_beq.1 hy
  exact List.contains_iff_exists_mem_beq.2 ⟨x, hx, PartialEquivBEq.trans h hyx⟩

theorem contains_union : (union xs ys).contains z = (xs.contains z || ys.contains z) := by
  induction ys generalizing xs with
  | nil => simp [union]
  | cons y ys ih =>
      rw [union_cons, ih, List.contains_cons]
      by_cases hy : xs.contains y = true
      · rw [if_pos hy]
        cases hzy : z == y with
        | false => rfl
        | true => simp [contains_of_beq hzy hy]
      · rw [if_neg hy]
        simp [Bool.or_assoc]

/-- What is joined to a list is joined to those before it as well. -/
theorem union_assoc : union (union xs ys) zs = union xs (union ys zs) := by
  -- The next of the last list goes to the middle one, on both sides, or to none.
  induction zs generalizing ys with
  | nil => rfl
  | cons z zs ih =>
      rw [union_cons, union_cons, ← ih, contains_union]
      congr 1
      by_cases hz : ys.contains z = true
      · rw [if_pos hz, hz, Bool.or_true, if_pos rfl]
      · rw [if_neg hz, union_append, union_cons, contains_union]
        rfl

end

/-! ## Joined lists -/

section

variable {α : Type} {nameOf : α → String} {join : α → α → α} {as bs cs : List α} {a b : α}
  {name : String}

/-- The entry joined with that of its name in a list, if there is one. -/
def joinWith (nameOf : α → String) (join : α → α → α) (bs : List α) (a : α) : α :=
  match bs.find? (nameOf · = nameOf a) with
  | some b => join a b
  | none => a

/-- The entries of a list, each joined with that of its name in another, and behind them those of the
other that have names of their own. -/
def joined (nameOf : α → String) (join : α → α → α) (as bs : List α) : List α :=
  as.map (joinWith nameOf join bs) ++ bs.filter (nameOf · ∉ as.map nameOf)

theorem joined_nil : joined nameOf join as [] = as := by
  have hmap : as.map (joinWith nameOf join []) = as :=
    (List.map_congr_left fun a _ => rfl).trans (List.map_id as)
  rw [joined, hmap, List.filter_nil, List.append_nil]

theorem nil_joined : joined nameOf join [] bs = bs := by
  simp [joined]

theorem joinWith_singleton :
    joinWith nameOf join [b] a = if nameOf a = nameOf b then join a b else a := by
  by_cases hsame : nameOf a = nameOf b
  · simp [joinWith, hsame]
  · simp [joinWith, hsame, Ne.symm hsame]

/-- An entry whose name is known is joined to those of its name. -/
theorem joined_known (h : nameOf b ∈ as.map nameOf) : joined nameOf join as [b] =
    as.map fun a => if nameOf a = nameOf b then join a b else a := by
  rw [joined, List.filter_cons_of_neg (by simpa using h), List.filter_nil, List.append_nil]
  exact List.map_congr_left fun a _ => joinWith_singleton

/-- An entry of a new name is put behind the list. -/
theorem joined_new (h : nameOf b ∉ as.map nameOf) : joined nameOf join as [b] = as ++ [b] := by
  have hmap : as.map (joinWith nameOf join [b]) = as := by
    refine (List.map_congr_left fun a ha => ?_).trans (List.map_id as)
    have hne : nameOf a ≠ nameOf b := fun hsame => h (hsame ▸ List.mem_map_of_mem ha)
    exact joinWith_singleton.trans (if_neg hne)
  rw [joined, hmap, List.filter_cons_of_pos (by simpa using h), List.filter_nil]

theorem joinWith_of_some (h : bs.find? (nameOf · = nameOf a) = some b) :
    joinWith nameOf join bs a = join a b := by
  rw [joinWith, h]

theorem joinWith_of_none (h : bs.find? (nameOf · = nameOf a) = none) :
    joinWith nameOf join bs a = a := by
  rw [joinWith, h]

theorem singleton_joined (h : nameOf a ∉ bs.map nameOf) : joined nameOf join [a] bs = a :: bs := by
  have hrest : bs.filter (nameOf · ∉ [a].map nameOf) = bs := by
    refine List.filter_eq_self.2 fun b hb => ?_
    have hne : nameOf b ≠ nameOf a := fun hsame => h (hsame ▸ List.mem_map_of_mem hb)
    simpa using hne
  have hnone : bs.find? (nameOf · = nameOf a) = none := by
    simpa using h
  rw [joined, hrest, List.map_singleton, joinWith_of_none hnone, List.singleton_append]

theorem joined_self (hnodup : (as.map nameOf).Nodup) (hself : ∀ a ∈ as, join a a = a) :
    joined nameOf join as as = as := by
  have hmap : as.map (joinWith nameOf join as) = as := by
    refine (List.map_congr_left fun a ha => ?_).trans (List.map_id as)
    exact (joinWith_of_some (find?_name as hnodup ha)).trans (hself a ha)
  have hnew : as.filter (nameOf · ∉ as.map nameOf) = [] := by
    refine List.filter_eq_nil_iff.2 fun a ha => ?_
    simpa using List.mem_map_of_mem (f := nameOf) ha
  rw [joined, hmap, hnew, List.append_nil]

variable (hname : ∀ a b, nameOf (join a b) = nameOf a)

include hname

theorem nameOf_joinWith : nameOf (joinWith nameOf join bs a) = nameOf a := by
  unfold joinWith
  split
  · exact hname a _
  · rfl

theorem map_nameOf_joinWith : (as.map (joinWith nameOf join bs)).map nameOf = as.map nameOf := by
  rw [List.map_map]
  exact List.map_congr_left fun a _ => nameOf_joinWith hname

theorem mem_names_joined : name ∈ (joined nameOf join as bs).map nameOf ↔
    name ∈ as.map nameOf ∨ name ∈ bs.map nameOf := by
  rw [joined, List.map_append, List.mem_append, map_nameOf_joinWith hname]
  by_cases hmem : name ∈ as.map nameOf
  · simp [hmem]
  · refine or_congr_right ⟨fun h => (List.filter_sublist.map nameOf).subset h, fun h => ?_⟩
    obtain ⟨b, hb, rfl⟩ := List.mem_map.1 h
    exact List.mem_map_of_mem (List.mem_filter.2 ⟨hb, by simpa using hmem⟩)

theorem find?_joined : (joined nameOf join as bs).find? (nameOf · = name) =
    match as.find? (nameOf · = name) with
    | some a => some (joinWith nameOf join bs a)
    | none => bs.find? (nameOf · = name) := by
  rw [joined, List.find?_append, List.find?_map]
  simp only [Function.comp_def, nameOf_joinWith hname]
  cases hfind : as.find? (nameOf · = name) with
  | some a => rfl
  | none =>
      have hnew : name ∉ as.map nameOf := by
        simpa using hfind
      rw [Option.map_none, Option.none_or, List.find?_filter]
      congr 1
      funext b
      by_cases hb : nameOf b = name
      · simpa [hb] using hnew
      · simp [hb]

theorem find?_joined_singleton (h : nameOf b ≠ name) :
    (joined nameOf join as [b]).find? (nameOf · = name) = as.find? (nameOf · = name) := by
  rw [find?_joined hname]
  cases hfind : as.find? (nameOf · = name) with
  | none => simp [h]
  | some a =>
      have hsame : nameOf a = name := by
        simpa using List.find?_some hfind
      have hnone : [b].find? (nameOf · = nameOf a) = none := by
        simpa [hsame] using h
      exact congrArg some (joinWith_of_none hnone)

theorem joinWith_joined (hassoc : ∀ a b c, join (join a b) c = join a (join b c)) :
    joinWith nameOf join (joined nameOf join bs cs) a =
      joinWith nameOf join cs (joinWith nameOf join bs a) := by
  have hjoined : (joined nameOf join bs cs).find? (nameOf · = nameOf a) = _ := find?_joined hname
  cases hb : bs.find? (nameOf · = nameOf a) with
  | none =>
      rw [hb] at hjoined
      rw [joinWith_of_none hb, joinWith, hjoined, joinWith]
  | some b =>
      rw [hb] at hjoined
      have hsame : nameOf b = nameOf a := by
        simpa using List.find?_some hb
      rw [joinWith_of_some hjoined, joinWith_of_some hb]
      cases hc : cs.find? (nameOf · = nameOf a) with
      | none => rw [joinWith_of_none (hsame ▸ hc), joinWith_of_none ((hname a b).symm ▸ hc)]
      | some c =>
          rw [joinWith_of_some (hsame ▸ hc), joinWith_of_some ((hname a b).symm ▸ hc), hassoc]

/-- Joining lists is associative if joining two entries is. -/
theorem joined_assoc (hassoc : ∀ a b c, join (join a b) c = join a (join b c)) :
    joined nameOf join (joined nameOf join as bs) cs =
      joined nameOf join as (joined nameOf join bs cs) := by
  -- Both sides are three runs: the entries of each list that are new behind those before it.
  have hmap : as.map (joinWith nameOf join (joined nameOf join bs cs)) =
      (as.map (joinWith nameOf join bs)).map (joinWith nameOf join cs) := by
    rw [List.map_map]
    exact List.map_congr_left fun a _ => joinWith_joined hname hassoc
  have hmiddle : (bs.filter (nameOf · ∉ as.map nameOf)).map (joinWith nameOf join cs) =
      (bs.map (joinWith nameOf join cs)).filter (nameOf · ∉ as.map nameOf) := by
    rw [List.filter_map]
    simp only [Function.comp_def, nameOf_joinWith hname]
  have hlast : cs.filter (nameOf · ∉ (joined nameOf join as bs).map nameOf) =
      (cs.filter (nameOf · ∉ bs.map nameOf)).filter (nameOf · ∉ as.map nameOf) := by
    rw [List.filter_filter]
    congr 1
    funext c
    simp only [mem_names_joined hname, not_or, Bool.decide_and]
  calc joined nameOf join (joined nameOf join as bs) cs
      = (as.map (joinWith nameOf join bs)).map (joinWith nameOf join cs) ++
          (bs.filter (nameOf · ∉ as.map nameOf)).map (joinWith nameOf join cs) ++
            cs.filter (nameOf · ∉ (joined nameOf join as bs).map nameOf) := by
        rw [← List.map_append]
        rfl
    _ = as.map (joinWith nameOf join (joined nameOf join bs cs)) ++
          ((bs.map (joinWith nameOf join cs)).filter (nameOf · ∉ as.map nameOf) ++
            (cs.filter (nameOf · ∉ bs.map nameOf)).filter (nameOf · ∉ as.map nameOf)) := by
        rw [hmap, hmiddle, hlast, List.append_assoc]
    _ = joined nameOf join as (joined nameOf join bs cs) := by
        rw [← List.filter_append]
        rfl

/-- Entries of distinct names are joined one after the other. -/
theorem joined_cons (hassoc : ∀ a b c, join (join a b) c = join a (join b c))
    (h : nameOf b ∉ bs.map nameOf) :
    joined nameOf join as (b :: bs) = joined nameOf join (joined nameOf join as [b]) bs := by
  rw [joined_assoc hname hassoc, singleton_joined h]

end

end SymbolTable

end Variorum
