import Mathlib.Data.List.Nodup
import Variorum.Proofs.Symbols.WellFormed
import Variorum.Symbols.Indexed

/-!
# Indices stay in step

The indices of a table that is built by declarations and unions have exactly the declared names, each with
its position. Such a table is the plain one with its indices computed from it, and it changes as the plain
one does.
-/

namespace Variorum

/-! ## Indices of lists of names -/

namespace Index

variable {names : List String} {name : String} {i : Nat}

def ofNames (names : List String) : Index :=
  ⟨fun name => names.idxOf? name⟩

theorem contains_ofNames : (ofNames names).contains name = true ↔ name ∈ names :=
  List.isSome_idxOf?

theorem insert_ofNames (h : name ∉ names) :
    (ofNames names).insert name names.length = ofNames (names ++ [name]) := by
  unfold insert ofNames
  congr 1
  funext other
  change _ = List.findIdx? (· == other) (names ++ [name])
  rw [List.findIdx?_append, List.findIdx?_singleton]
  by_cases hother : other = name
  · have hnone : names.findIdx? (· == name) = none := List.idxOf?_eq_none_iff.2 h
    simp [hother, hnone]
  · simp [hother, Ne.symm hother, List.idxOf?]

theorem position?_ofNames (h : names.Nodup) :
    (ofNames names).position? name = some i ↔ names[i]? = some name := by
  rw [ofNames, List.idxOf?_eq_some_iff, List.getElem?_eq_some_iff]
  refine exists_congr fun hi => and_iff_left_of_imp ?_
  rintro rfl j hj hsame
  exact absurd ((h.getElem_inj_iff).1 hsame) (Nat.ne_of_lt hj)

/-- The position of a name is that of the entry with this name. -/
theorem exists_entry {α : Type} {nameOf : α → String} {as : List α} (h : (as.map nameOf).Nodup)
    (hposition : (ofNames (as.map nameOf)).position? name = some i) :
    ∃ a, as[i]? = some a ∧ nameOf a = name := by
  have hi := (position?_ofNames h).1 hposition
  rwa [List.getElem?_map, Option.map_eq_some_iff] at hi

end Index

/-! ## Entries at positions -/

section

variable {α : Type} {nameOf : α → String} {as : List α} {a b : α} {name : String} {i : Nat}

/-- Among distinct names a change of the entries of one name is a change at its position. -/
theorem map_name_eq_set {f : α → α} (h : (as.map nameOf).Nodup) (hi : as[i]? = some a)
    (hname : nameOf a = name) :
    as.map (fun b => if nameOf b = name then f b else b) = as.set i (f a) := by
  subst hname
  refine List.ext_getElem? fun j => ?_
  rw [List.getElem?_map, List.getElem?_set]
  obtain ⟨hlength, hget⟩ := List.getElem?_eq_some_iff.1 hi
  by_cases hij : i = j
  · subst hij
    simp [hlength, hget]
  · rw [if_neg hij]
    cases hj : as[j]? with
    | none => rfl
    | some b =>
        have hne : nameOf b ≠ nameOf a := by
          intro hsame
          refine hij ((List.getElem?_inj (by rwa [List.length_map]) h).1 ?_)
          rw [List.getElem?_map, List.getElem?_map, hi, hj, Option.map_some, Option.map_some, hsame]
        rw [Option.map_some, if_neg hne]

theorem map_name_set (hi : as[i]? = some a) (hname : nameOf b = nameOf a) :
    (as.set i b).map nameOf = as.map nameOf := by
  obtain ⟨hlength, hget⟩ := List.getElem?_eq_some_iff.1 hi
  have hbound : i < (as.map nameOf).length := by rwa [List.length_map]
  have hsame : nameOf b = (as.map nameOf)[i] := by
    rw [List.getElem_map, hget, hname]
  rw [List.map_set, hsame, List.set_getElem_self]

end

/-- The table with its indices. -/
def SymbolTable.indexed (v : SymbolTable) : IndexedTable :=
  { v with
    parameterIndex := .ofNames (v.parameters.map (·.name))
    macroIndex := .ofNames (v.macros.map (·.name)) }

namespace IndexedTable

variable {t : IndexedTable} {v w : SymbolTable} {p : Parameter} {m : Macro} {name : String}
  {ε ε' α β : Type}

/-! ## Runs of changes -/

theorem run_bind {c : Change ε α} {f : α → Change ε β} : (c >>= f).run.run t =
    match c.run.run t with
    | (.ok a, t') => (f a).run.run t'
    | (.error e, t') => (.error e, t') := by
  simp only [ExceptT.run, bind, ExceptT.bind, ExceptT.mk, StateT.run, StateT.bind]
  rcases c t with ⟨e | a, t'⟩
  · rfl
  · rfl

theorem run_get_bind {f : IndexedTable → Change ε α} : (get >>= f).run.run t = (f t).run.run t :=
  rfl

theorem run_adapt {f : ε → ε'} {c : Change ε α} :
    (c.adapt f).run.run t = ((c.run.run t).1.mapError f, (c.run.run t).2) :=
  rfl

theorem run_entry {as : List α} {a : α} {i : Nat} {f : α → Change Fault β} (hi : as[i]? = some a) :
    ((liftM (entry as i) : Change Fault α) >>= f).run.run t = (f a).run.run t := by
  rw [entry, hi]
  rfl

theorem run_checkFree : (checkFree name).run.run t =
    if t.parameterIndex.contains name || t.macroIndex.contains name then
      (.error (SymbolTable.repeated name), t)
    else (.ok (), t) := by
  rw [checkFree, run_get_bind]
  split <;> rfl

/-! ## Changes of tables that are in step -/

/-- How a change ends that does to a table with its indices what is done to the plain one. -/
def outcome (f : CompileError → ε) (v : SymbolTable) :
    Except CompileError SymbolTable → Except ε Unit × IndexedTable
  | .ok w => (.ok (), w.indexed)
  | .error e => (.error (f e), v.indexed)

theorem contains_parameterIndex :
    v.indexed.parameterIndex.contains name = true ↔ (v.parameter? name).isSome = true := by
  rw [SymbolTable.indexed, Index.contains_ofNames, SymbolTable.parameter?, List.find?_isSome]
  simp

theorem contains_macroIndex :
    v.indexed.macroIndex.contains name = true ↔ (v.macro? name).isSome = true := by
  rw [SymbolTable.indexed, Index.contains_ofNames, SymbolTable.macro?, List.find?_isSome]
  simp

theorem parameter?_of_position (h : v.indexed.parameterIndex.position? name = none) :
    v.parameter? name = none := by
  rw [← Option.not_isSome_iff_eq_none, ← contains_parameterIndex, Index.contains, h]
  exact Bool.false_ne_true

theorem macro?_of_position (h : v.indexed.macroIndex.position? name = none) : v.macro? name = none := by
  rw [← Option.not_isSome_iff_eq_none, ← contains_macroIndex, Index.contains, h]
  exact Bool.false_ne_true

theorem run_checkFree_indexed : (checkFree name).run.run v.indexed =
    if v.declares name then (.error (SymbolTable.repeated name), v.indexed) else (.ok (), v.indexed) := by
  rw [run_checkFree]
  simp only [Bool.or_eq_true, contains_parameterIndex, contains_macroIndex, SymbolTable.declares]

theorem run_addParameter_indexed :
    (addParameter p).run.run v.indexed = outcome id v (v.addParameter p) := by
  unfold addParameter SymbolTable.addParameter
  by_cases hvalues : p.values.isEmpty = true
  · rw [if_pos hvalues, if_pos hvalues]
    rfl
  · rw [if_neg hvalues, if_neg hvalues, run_bind, run_checkFree_indexed]
    by_cases hfree : v.declares p.name = true
    · rw [if_pos hfree, if_pos hfree]
      rfl
    · rw [if_neg hfree, if_neg hfree]
      have hnew : p.name ∉ v.parameters.map (·.name) := by
        simpa using (SymbolTable.not_declares hfree).1
      simp only [outcome, SymbolTable.indexed, List.map_append, List.map_cons, List.map_nil,
        ← Index.insert_ofNames hnew, List.length_map]
      rfl

theorem run_addMacro_indexed :
    (addMacro m).run.run v.indexed = outcome id v (v.addMacro m) := by
  unfold addMacro SymbolTable.addMacro
  rw [run_bind, run_checkFree_indexed]
  by_cases hfree : v.declares m.name = true
  · rw [if_pos hfree, if_pos hfree]
    rfl
  · rw [if_neg hfree, if_neg hfree]
    have hnew : m.name ∉ v.macros.map (·.name) := by
      simpa using (SymbolTable.not_declares hfree).2
    simp only [outcome, SymbolTable.indexed, List.map_append, List.map_cons, List.map_nil,
      ← Index.insert_ofNames hnew, List.length_map]
    rfl

theorem run_mergeParameter_indexed (h : v.WellFormed) :
    (mergeParameter p).run.run v.indexed = outcome .refused v (v.mergeParameter p) := by
  unfold mergeParameter SymbolTable.mergeParameter
  rw [run_get_bind]
  by_cases hambiguous : (v.macro? p.name).isSome = true
  · rw [if_pos hambiguous, if_pos (contains_macroIndex.2 hambiguous)]
    rfl
  · rw [if_neg hambiguous, if_neg (mt contains_macroIndex.1 hambiguous)]
    cases hposition : v.indexed.parameterIndex.position? p.name with
    | none =>
        have hnew : ¬(v.parameter? p.name).isSome = true := by
          rw [parameter?_of_position hposition]
          exact Bool.false_ne_true
        rw [if_neg hnew, run_adapt, run_addParameter_indexed]
        cases v.addParameter p <;> rfl
    | some i =>
        obtain ⟨q, hi, hname⟩ := Index.exists_entry h.parameters_nodup hposition
        have hknown : v.parameter? p.name = some q :=
          hname ▸ h.parameter?_of_mem (List.mem_of_getElem? hi)
        have hset := map_name_eq_set h.parameters_nodup hi hname
          (f := fun q => { q with values := SymbolTable.union q.values p.values })
        have hnames : (v.parameters.set i { q with values := SymbolTable.union q.values p.values }).map
            (·.name) = v.parameters.map (·.name) := map_name_set hi rfl
        rw [hknown, if_pos (Option.isSome_some), hset]
        simp only [outcome, SymbolTable.indexed, run_entry hi, hnames]
        rfl

theorem run_mergeMacro_indexed (h : v.WellFormed) :
    (mergeMacro m).run.run v.indexed = outcome .refused v (v.mergeMacro m) := by
  unfold mergeMacro SymbolTable.mergeMacro
  rw [run_get_bind]
  by_cases hparameter : (v.parameter? m.name).isSome = true
  · rw [if_pos hparameter, if_pos (contains_parameterIndex.2 hparameter)]
    rfl
  · rw [if_neg hparameter, if_neg (mt contains_parameterIndex.1 hparameter)]
    cases hposition : v.indexed.macroIndex.position? m.name with
    | none =>
        rw [macro?_of_position hposition, run_adapt, run_addMacro_indexed]
        cases v.addMacro m <;> rfl
    | some i =>
        obtain ⟨k, hi, hname⟩ := Index.exists_entry h.macros_nodup hposition
        have hknown : v.macro? m.name = some k :=
          hname ▸ h.macro?_of_mem (List.mem_of_getElem? hi)
        have hset := map_name_eq_set h.macros_nodup hi hname
          (f := fun k => { k with bodies := SymbolTable.union k.bodies m.bodies })
        have hnames : (v.macros.set i { k with bodies := SymbolTable.union k.bodies m.bodies }).map
            (·.name) = v.macros.map (·.name) := map_name_set hi rfl
        rw [hknown]
        simp only [SymbolTable.indexed, run_entry hi]
        by_cases hargs : k.signature.args ≠ m.signature.args
        · rw [if_pos hargs, if_pos hargs]
          rfl
        · rw [if_neg hargs, if_neg hargs, hset]
          simp only [outcome, SymbolTable.indexed, hnames]
          rfl

/-! ## Unions of tables that are in step -/

theorem run_forM_indexed {c : α → Change Fault Unit}
    {f : SymbolTable → α → Except CompileError SymbolTable}
    (hstep : ∀ v a, v.WellFormed → (c a).run.run v.indexed = outcome .refused v (f v a))
    (hkeep : ∀ v a w, v.WellFormed → f v a = .ok w → w.WellFormed) (as : List α) (h : v.WellFormed) :
    ∃ last, (as.forM c).run.run v.indexed = outcome .refused last (as.foldlM f v) := by
  induction as generalizing v with
  | nil => exact ⟨v, rfl⟩
  | cons a as ih =>
      rw [List.foldlM_cons, List.forM, run_bind, hstep v a h]
      cases hf : f v a with
      | error e => exact ⟨v, rfl⟩
      | ok w => exact ih (hkeep v a w h hf)

theorem run_mergeAll_indexed (h : v.WellFormed) :
    ∃ last, (mergeAll w.indexed).run.run v.indexed = outcome .refused last (v.merge w) := by
  obtain ⟨last, hparameters⟩ := run_forM_indexed (fun _ _ h => run_mergeParameter_indexed h)
    (fun _ _ _ h => h.mergeParameter) w.parameters h
  rw [mergeAll, run_bind, SymbolTable.merge]
  rw [show w.indexed.parameters = w.parameters from rfl, hparameters]
  cases hu : w.parameters.foldlM SymbolTable.mergeParameter v with
  | error e => exact ⟨last, rfl⟩
  | ok u =>
      have hwell : u.WellFormed :=
        Except.foldlM_invariant (fun _ _ _ h he => h.mergeParameter he) h hu
      exact run_forM_indexed (fun _ _ h => run_mergeMacro_indexed h) (fun _ _ _ h => h.mergeMacro)
        w.macros hwell

/-- Tables in step are joined as the plain ones are. -/
theorem merge_indexed (h : v.WellFormed) : merge v.indexed w.indexed =
    ((v.merge w).map SymbolTable.indexed).mapError .refused := by
  obtain ⟨last, hrun⟩ := run_mergeAll_indexed (w := w) h
  rw [merge, hrun]
  cases v.merge w <;> rfl

theorem merge_indexed_eq_ok (h : v.WellFormed) :
    merge v.indexed w.indexed = .ok t ↔ ∃ u, v.merge w = .ok u ∧ u.indexed = t := by
  rw [merge_indexed h]
  cases v.merge w with
  | error e => simp [Except.map, Except.mapError]
  | ok u => simp [Except.map, Except.mapError]

/-! ## Tables that are built -/

/-- The tables that declarations, also those that fail, and unions make from the empty one. -/
inductive Built : IndexedTable → Prop
  | empty : Built empty
  | addParameter {t : IndexedTable} (p : Parameter) : Built t → Built ((addParameter p).run.run t).2
  | addMacro {t : IndexedTable} (m : Macro) : Built t → Built ((addMacro m).run.run t).2
  | merge {a b t : IndexedTable} : Built a → Built b → merge a b = .ok t → Built t

theorem Built.exists_indexed (h : Built t) : ∃ v : SymbolTable, v.WellFormed ∧ t = v.indexed := by
  induction h with
  | empty => exact ⟨.empty, SymbolTable.wellFormed_empty, rfl⟩
  | addParameter p _ ih =>
      obtain ⟨v, hv, rfl⟩ := ih
      rw [run_addParameter_indexed]
      cases hw : v.addParameter p with
      | error e => exact ⟨v, hv, rfl⟩
      | ok w => exact ⟨w, hv.addParameter hw, rfl⟩
  | addMacro m _ ih =>
      obtain ⟨v, hv, rfl⟩ := ih
      rw [run_addMacro_indexed]
      cases hw : v.addMacro m with
      | error e => exact ⟨v, hv, rfl⟩
      | ok w => exact ⟨w, hv.addMacro hw, rfl⟩
  | merge _ _ hmerge iha ihb =>
      obtain ⟨v, hv, rfl⟩ := iha
      obtain ⟨w, -, rfl⟩ := ihb
      obtain ⟨u, hu, rfl⟩ := (merge_indexed_eq_ok hv).1 hmerge
      exact ⟨u, hv.merge hu, rfl⟩

/-- Names are declared once, parameters have values, and each index has exactly the declared names with
their positions, so that a look-up finds what is declared and never reads out of range. -/
structure Sound (t : IndexedTable) : Prop where
  names_nodup : (t.parameters.map (·.name) ++ t.macros.map (·.name)).Nodup
  values_ne_nil : ∀ p ∈ t.parameters, p.values ≠ []
  parameter_position : ∀ name i, t.parameterIndex.position? name = some i ↔
    (t.parameters.map (·.name))[i]? = some name
  macro_position : ∀ name i, t.macroIndex.position? name = some i ↔
    (t.macros.map (·.name))[i]? = some name
  parameter_found : ∀ name p, t.parameter? name = .ok (some p) ↔ p ∈ t.parameters ∧ p.name = name
  parameter_missing : ∀ name, t.parameter? name = .ok none ↔ ∀ p ∈ t.parameters, p.name ≠ name
  macro_found : ∀ name m, t.macro? name = .ok (some m) ↔ m ∈ t.macros ∧ m.name = name
  macro_missing : ∀ name, t.macro? name = .ok none ↔ ∀ m ∈ t.macros, m.name ≠ name

theorem parameter?_indexed (h : v.WellFormed) : v.indexed.parameter? name = .ok (v.parameter? name) := by
  unfold parameter?
  cases hposition : v.indexed.parameterIndex.position? name with
  | none => rw [parameter?_of_position hposition]
  | some i =>
      obtain ⟨p, hi, rfl⟩ := Index.exists_entry h.parameters_nodup hposition
      change (entry v.parameters i).map some = _
      rw [h.parameter?_of_mem (List.mem_of_getElem? hi), entry, hi]
      rfl

theorem macro?_indexed (h : v.WellFormed) : v.indexed.macro? name = .ok (v.macro? name) := by
  unfold macro?
  cases hposition : v.indexed.macroIndex.position? name with
  | none => rw [macro?_of_position hposition]
  | some i =>
      obtain ⟨m, hi, rfl⟩ := Index.exists_entry h.macros_nodup hposition
      change (entry v.macros i).map some = _
      rw [h.macro?_of_mem (List.mem_of_getElem? hi), entry, hi]
      rfl

theorem sound_indexed (h : v.WellFormed) : v.indexed.Sound where
  names_nodup := by
    refine List.nodup_append.2 ⟨h.parameters_nodup, h.macros_nodup, fun a ha b hb => ?_⟩
    obtain ⟨p, hp, rfl⟩ := List.mem_map.1 ha
    obtain ⟨m, hm, rfl⟩ := List.mem_map.1 hb
    exact h.disjoint p hp m hm
  values_ne_nil := h.values_ne_nil
  parameter_position _ _ := Index.position?_ofNames h.parameters_nodup
  macro_position _ _ := Index.position?_ofNames h.macros_nodup
  parameter_found name p := by
    rw [parameter?_indexed h, Except.ok.injEq]
    exact h.parameter?_eq_some
  parameter_missing name := by
    rw [parameter?_indexed h, Except.ok.injEq]
    exact SymbolTable.parameter?_eq_none
  macro_found name m := by
    rw [macro?_indexed h, Except.ok.injEq]
    exact h.macro?_eq_some
  macro_missing name := by
    rw [macro?_indexed h, Except.ok.injEq]
    exact SymbolTable.macro?_eq_none

/-- The declaration leads to a table if it may be made, and else it is refused and the table stays as it
is. -/
structure Declares (c : Change CompileError Unit) (t : IndexedTable) (allowed : Prop) (v : SymbolTable) :
    Prop where
  made : allowed → ∃ t', c.run.run t = (.ok (), t') ∧ t'.toSymbolTable = v
  refused : ¬allowed → ∃ e, c.run.run t = (.error e, t)

theorem declares_of_outcome {c : Change CompileError Unit} {r : Except CompileError SymbolTable}
    {allowed : Prop} (hrun : c.run.run v.indexed = outcome id v r)
    (hr : ∀ x, r = .ok x ↔ allowed ∧ w = x) : Declares c v.indexed allowed w := by
  constructor
  · intro hallowed
    rw [hrun, (hr w).2 ⟨hallowed, rfl⟩]
    exact ⟨_, rfl, rfl⟩
  · intro hnot
    rw [hrun]
    cases r with
    | error e => exact ⟨e, rfl⟩
    | ok x => exact absurd ((hr x).1 rfl).1 hnot

/-- Whatever is built is sound. A declaration that is allowed is put behind the others of its kind, and one
that is not leaves all as it is. Joining a table to what is built never reads out of range. -/
theorem sound_of_built (h : Built t) : t.Sound ∧
    (∀ p, Declares (addParameter p) t
      (p.values ≠ [] ∧ t.parameter? p.name = .ok none ∧ t.macro? p.name = .ok none)
      { t.toSymbolTable with parameters := t.parameters ++ [p] }) ∧
    (∀ m, Declares (addMacro m) t (t.parameter? m.name = .ok none ∧ t.macro? m.name = .ok none)
      { t.toSymbolTable with macros := t.macros ++ [m] }) ∧
    ∀ u, Built u → ∀ i, merge t u ≠ .error (.outOfRange i) := by
  obtain ⟨v, hv, rfl⟩ := h.exists_indexed
  simp only [parameter?_indexed hv, macro?_indexed hv, Except.ok.injEq]
  refine ⟨sound_indexed hv, fun p => ?_, fun m => ?_, fun u hu i => ?_⟩
  · exact declares_of_outcome run_addParameter_indexed fun x => SymbolTable.addParameter_eq_ok
  · exact declares_of_outcome run_addMacro_indexed fun x => SymbolTable.addMacro_eq_ok
  · obtain ⟨w, -, rfl⟩ := hu.exists_indexed
    rw [merge_indexed hv]
    cases v.merge w with
    | error e => exact fun he => nomatch he
    | ok w => exact fun he => nomatch he

/-- The table with further declarations, as far as they are not refused. -/
def declaring (t : IndexedTable) (ps : List Parameter) (ms : List Macro) : IndexedTable :=
  ms.foldl (fun t m => ((addMacro m).run.run t).2) (ps.foldl (fun t p => ((addParameter p).run.run t).2) t)

theorem built_declaring {ps : List Parameter} {ms : List Macro} (h : Built t) : Built (t.declaring ps ms) :=
  List.foldlRecOn ms _ (List.foldlRecOn ps _ h fun _ hbuilt p _ => .addParameter p hbuilt)
    fun _ hbuilt m _ => .addMacro m hbuilt

/-- A macro `m(a)` with the bodies that can be compiled. -/
def wrapper (raws : List String) : Macro :=
  ⟨⟨"m", ["a"]⟩, raws.filterMap fun raw => (Template.compile raw).toOption⟩

/-- A table to which one name was added twice, the second time in vain. -/
def twice : IndexedTable :=
  empty.declaring [⟨"x", [.integer 1, .float 0.5]⟩, ⟨"x", [.integer 2]⟩] [wrapper ["<${a}>"]]

/-- A table with the same names and one more. -/
def further : IndexedTable :=
  empty.declaring [⟨"x", [.integer 2, .integer 1]⟩, ⟨"y", [.text "v"]⟩] [wrapper ["${a}!", "<${a}>"]]

/-- The declarations of a table as they are displayed. -/
def outline (t : IndexedTable) : List (String × List String) :=
  t.parameters.map (fun p => (p.name, p.values.map Value.display)) ++
    t.macros.map fun m => (m.signature.print, m.bodies.map (·.fragment.skeleton))

theorem exists_merged {r : Except Fault IndexedTable} {declared : List (String × List String)}
    (h : r.toOption.map outline = some declared) : ∃ t, r = .ok t ∧ t.outline = declared := by
  cases r with
  | error => cases h
  | ok t => exact ⟨t, rfl, Option.some.inj h⟩

theorem sound_of_built_twice : ∃ t, merge twice further = .ok t ∧
    t.outline = [("x", ["1", "0.5", "2"]), ("y", ["v"]), ("m(a)", ["<{0}>", "{0}!"])] ∧ Built t ∧ t.Sound ∧
    (∀ p, Declares (addParameter p) t
      (p.values ≠ [] ∧ t.parameter? p.name = .ok none ∧ t.macro? p.name = .ok none)
      { t.toSymbolTable with parameters := t.parameters ++ [p] }) ∧
    (∀ m, Declares (addMacro m) t (t.parameter? m.name = .ok none ∧ t.macro? m.name = .ok none)
      { t.toSymbolTable with macros := t.macros ++ [m] }) ∧
    ∀ u, Built u → ∀ i, merge t u ≠ .error (.outOfRange i) := by
  have hunion : (merge twice further).toOption.map outline =
      some [("x", ["1", "0.5", "2"]), ("y", ["v"]), ("m(a)", ["<{0}>", "{0}!"])] := by
    decide +kernel
  obtain ⟨t, hmerge, hdeclared⟩ := exists_merged hunion
  have hbuilt : Built t := .merge (built_declaring .empty) (built_declaring .empty) hmerge
  exact ⟨t, hmerge, hdeclared, hbuilt, sound_of_built hbuilt⟩

end IndexedTable

end Variorum
