import Variorum.Proofs.Symbols.Indexed
import Variorum.Proofs.Symbols.Joining
import Variorum.Proofs.Value

/-!
# Unions of tables

Where two tables agree about what their names stand for, their union is the list of all declarations, each
at its first place. It does not depend on how three tables are put together.
-/

namespace Variorum

/-- The parameter with the values of another behind its own. -/
def Parameter.join (p q : Parameter) : Parameter :=
  { p with values := SymbolTable.union p.values q.values }

/-- The macro with the bodies of another behind its own. -/
def Macro.join (k m : Macro) : Macro :=
  { k with bodies := SymbolTable.union k.bodies m.bodies }

theorem Parameter.name_join (p q : Parameter) : (p.join q).name = p.name := rfl

theorem Macro.name_join (k m : Macro) : (k.join m).name = k.name := rfl

theorem Parameter.join_assoc (p q r : Parameter) : (p.join q).join r = p.join (q.join r) :=
  congrArg (Parameter.mk p.name) SymbolTable.union_assoc

theorem Macro.join_assoc (k m n : Macro) : (k.join m).join n = k.join (m.join n) :=
  congrArg (Macro.mk k.signature) SymbolTable.union_assoc

namespace SymbolTable

variable {t u v w : SymbolTable} {p : Parameter} {m : Macro} {ps : List Parameter} {ms : List Macro}

/-- All declarations of two tables, those of the first at their places. -/
def join (v w : SymbolTable) : SymbolTable where
  parameters := joined Parameter.name Parameter.join v.parameters w.parameters
  macros := joined Macro.name Macro.join v.macros w.macros

theorem join_assoc : (v.join w).join u = v.join (w.join u) :=
  congrArg₂ SymbolTable.mk (joined_assoc Parameter.name_join Parameter.join_assoc)
    (joined_assoc Macro.name_join Macro.join_assoc)

/-! ## Single declarations -/

theorem mergeParameter_eq_ok (hp : p.values ≠ []) : v.mergeParameter p = .ok t ↔
    v.macro? p.name = none ∧
      { v with parameters := joined Parameter.name Parameter.join v.parameters [p] } = t := by
  unfold mergeParameter
  cases hfree : v.macro? p.name with
  | some m => simp
  | none =>
      rw [if_neg (by simp)]
      cases hknown : v.parameter? p.name with
      | some q =>
          have hmem : p.name ∈ v.parameters.map Parameter.name := by
            obtain ⟨hq, hname⟩ := mem_of_parameter? hknown
            exact hname ▸ List.mem_map_of_mem hq
          rw [if_pos Option.isSome_some, joined_known hmem]
          simp [Parameter.join]
      | none =>
          have hnew : p.name ∉ v.parameters.map Parameter.name := by
            simpa using parameter?_eq_none.1 hknown
          rw [if_neg (by simp), joined_new hnew, addParameter_eq_ok]
          simp [hp, hfree, hknown]

theorem foldlM_mergeParameter (hnodup : (ps.map Parameter.name).Nodup) (hvalues : ∀ p ∈ ps, p.values ≠ []) :
    ps.foldlM mergeParameter v = .ok t ↔ (∀ p ∈ ps, v.macro? p.name = none) ∧
      { v with parameters := joined Parameter.name Parameter.join v.parameters ps } = t := by
  induction ps generalizing v with
  | nil =>
      rw [joined_nil]
      simp [pure, Except.pure]
  | cons p ps ih =>
      obtain ⟨hp, hps⟩ := List.forall_mem_cons.1 hvalues
      obtain ⟨hnew, hnodup⟩ := List.nodup_cons.1 hnodup
      rw [List.foldlM_cons, Except.bind_eq_ok, List.forall_mem_cons,
        joined_cons Parameter.name_join Parameter.join_assoc hnew]
      constructor
      · rintro ⟨x, hx, hrest⟩
        obtain ⟨hfree, rfl⟩ := (mergeParameter_eq_ok hp).1 hx
        obtain ⟨hmacros, ht⟩ := (ih hnodup hps).1 hrest
        exact ⟨⟨hfree, hmacros⟩, ht⟩
      · rintro ⟨⟨hfree, hmacros⟩, ht⟩
        exact ⟨_, (mergeParameter_eq_ok hp).2 ⟨hfree, rfl⟩, (ih hnodup hps).2 ⟨hmacros, ht⟩⟩

theorem mergeMacro_eq_ok : v.mergeMacro m = .ok t ↔
    (v.parameter? m.name = none ∧ ∀ k, v.macro? m.name = some k → k.signature.args = m.signature.args) ∧
      { v with macros := joined Macro.name Macro.join v.macros [m] } = t := by
  unfold mergeMacro
  cases hparameter : v.parameter? m.name with
  | some p => simp
  | none =>
      rw [if_neg (by simp)]
      cases hknown : v.macro? m.name with
      | some k =>
          have hmem : m.name ∈ v.macros.map Macro.name := by
            obtain ⟨hk, hname⟩ := mem_of_macro? hknown
            exact hname ▸ List.mem_map_of_mem hk
          rw [joined_known hmem]
          by_cases hargs : k.signature.args = m.signature.args
          · simp [hargs, Macro.join]
          · simp [hargs]
      | none =>
          have hnew : m.name ∉ v.macros.map Macro.name := by
            simpa using macro?_eq_none.1 hknown
          rw [joined_new hnew]
          simp [addMacro_eq_ok, hparameter, hknown]

theorem foldlM_mergeMacro (hnodup : (ms.map Macro.name).Nodup) :
    ms.foldlM mergeMacro v = .ok t ↔
      (∀ m ∈ ms, v.parameter? m.name = none ∧
        ∀ k, v.macro? m.name = some k → k.signature.args = m.signature.args) ∧
      { v with macros := joined Macro.name Macro.join v.macros ms } = t := by
  induction ms generalizing v with
  | nil =>
      rw [joined_nil]
      simp [pure, Except.pure]
  | cons m ms ih =>
      obtain ⟨hnew, hnodup⟩ := List.nodup_cons.1 hnodup
      -- The other names are looked up as before, since they differ from the one that is joined.
      have hkeep : ∀ n ∈ ms, macro? { v with macros := joined Macro.name Macro.join v.macros [m] } n.name =
          v.macro? n.name := fun n hn =>
        find?_joined_singleton Macro.name_join fun hsame => hnew (hsame ▸ List.mem_map_of_mem hn)
      rw [List.foldlM_cons, Except.bind_eq_ok, List.forall_mem_cons,
        joined_cons Macro.name_join Macro.join_assoc hnew]
      constructor
      · rintro ⟨x, hx, hrest⟩
        obtain ⟨hagree, rfl⟩ := mergeMacro_eq_ok.1 hx
        obtain ⟨hothers, ht⟩ := (ih hnodup).1 hrest
        refine ⟨⟨hagree, fun n hn => ?_⟩, ht⟩
        exact hkeep n hn ▸ hothers n hn
      · rintro ⟨⟨hagree, hothers⟩, ht⟩
        refine ⟨_, mergeMacro_eq_ok.2 ⟨hagree, rfl⟩, (ih hnodup).2 ⟨fun n hn => ?_, ht⟩⟩
        exact (hkeep n hn).symm ▸ hothers n hn

/-! ## Tables that clash -/

/-- A name is a parameter on one side and a macro on the other, or a macro on both with different
arguments. -/
def Clash (v w : SymbolTable) : Prop :=
  (∃ p ∈ v.parameters, ∃ m ∈ w.macros, p.name = m.name) ∨
    (∃ k ∈ v.macros, ∃ p ∈ w.parameters, k.name = p.name) ∨
      ∃ k ∈ v.macros, ∃ m ∈ w.macros, k.name = m.name ∧ k.signature.args ≠ m.signature.args

instance : Decidable (Clash v w) :=
  inferInstanceAs (Decidable (_ ∨ _ ∨ _))

theorem not_clash_iff : ¬Clash v w ↔
    (∀ p ∈ v.parameters, ∀ m ∈ w.macros, p.name ≠ m.name) ∧
      (∀ k ∈ v.macros, ∀ p ∈ w.parameters, k.name ≠ p.name) ∧
        ∀ k ∈ v.macros, ∀ m ∈ w.macros, k.name = m.name → k.signature.args = m.signature.args := by
  simp [Clash]

theorem parameter?_join_eq_none {name : String} : (v.join w).parameter? name = none ↔
    v.parameter? name = none ∧ w.parameter? name = none := by
  have hiff : ∀ x : SymbolTable, x.parameter? name = none ↔ name ∉ x.parameters.map Parameter.name := by
    simp [parameter?]
  rw [hiff, hiff, hiff, join, mem_names_joined Parameter.name_join, not_or]

/-- The union of two tables is their join, unless they clash. -/
theorem merge_eq_ok (hv : v.WellFormed) (hw : w.WellFormed) :
    v.merge w = .ok t ↔ ¬Clash v w ∧ v.join w = t := by
  rw [merge, Except.bind_eq_ok, not_clash_iff]
  constructor
  · rintro ⟨u, hu, ht⟩
    obtain ⟨hparameters, rfl⟩ := (foldlM_mergeParameter hw.parameters_nodup hw.values_ne_nil).1 hu
    obtain ⟨hmacros, rfl⟩ := (foldlM_mergeMacro hw.macros_nodup).1 ht
    refine ⟨⟨fun p hp m hm => ?_, fun k hk p hp => ?_, fun k hk m hm hname => ?_⟩, rfl⟩
    · have hnone : v.parameter? m.name = none := (parameter?_join_eq_none.1 (hmacros m hm).1).1
      exact parameter?_eq_none.1 hnone p hp
    · exact macro?_eq_none.1 (hparameters p hp) k hk
    · exact (hmacros m hm).2 k (hname ▸ hv.macro?_of_mem hk)
  · rintro ⟨⟨hbefore, hbehind, hargs⟩, rfl⟩
    have hparameters : ∀ p ∈ w.parameters, v.macro? p.name = none := fun p hp =>
      macro?_eq_none.2 fun k hk => hbehind k hk p hp
    have hmacros : ∀ m ∈ w.macros, (v.join w).parameter? m.name = none ∧
        ∀ k, v.macro? m.name = some k → k.signature.args = m.signature.args := by
      intro m hm
      refine ⟨parameter?_join_eq_none.2 ⟨?_, ?_⟩, fun k hk => ?_⟩
      · exact parameter?_eq_none.2 fun p hp => hbefore p hp m hm
      · exact parameter?_eq_none.2 fun p hp => hw.disjoint p hp m hm
      · obtain ⟨hmem, hname⟩ := mem_of_macro? hk
        exact hargs k hmem m hm hname
    exact ⟨_, (foldlM_mergeParameter hw.parameters_nodup hw.values_ne_nil).2 ⟨hparameters, rfl⟩,
      (foldlM_mergeMacro hw.macros_nodup).2 ⟨hmacros, rfl⟩⟩

/-! ## Joins that clash -/

theorem Clash.symm (h : Clash v w) : Clash w v := by
  rcases h with ⟨p, hp, m, hm, hname⟩ | ⟨k, hk, p, hp, hname⟩ | ⟨k, hk, m, hm, hname, hargs⟩
  · exact .inr (.inl ⟨m, hm, p, hp, hname.symm⟩)
  · exact .inl ⟨p, hp, k, hk, hname.symm⟩
  · exact .inr (.inr ⟨m, hm, k, hk, hname.symm, hargs.symm⟩)

theorem clash_comm : Clash v w ↔ Clash w v :=
  ⟨Clash.symm, Clash.symm⟩

theorem forall_parameters_join {P : String → Prop} : (∀ p ∈ (v.join w).parameters, P p.name) ↔
    (∀ p ∈ v.parameters, P p.name) ∧ ∀ p ∈ w.parameters, P p.name := by
  have hnames : ∀ name, name ∈ (v.join w).parameters.map Parameter.name ↔
      name ∈ v.parameters.map Parameter.name ∨ name ∈ w.parameters.map Parameter.name :=
    fun _ => mem_names_joined Parameter.name_join
  have hall : ∀ x : SymbolTable, (∀ p ∈ x.parameters, P p.name) ↔
      ∀ name ∈ x.parameters.map Parameter.name, P name := by
    simp
  rw [hall, hall, hall]
  simp only [hnames, or_imp, forall_and]

/-- Tables that do not clash have the signatures of both in their join. -/
theorem forall_macros_join (h : ¬Clash v w) {P : Signature → Prop} :
    (∀ m ∈ (v.join w).macros, P m.signature) ↔
      (∀ m ∈ v.macros, P m.signature) ∧ ∀ m ∈ w.macros, P m.signature := by
  have hsame : ∀ m, (joinWith Macro.name Macro.join w.macros m).signature = m.signature := by
    intro m
    unfold joinWith
    split <;> rfl
  change (∀ m ∈ joined Macro.name Macro.join v.macros w.macros, P m.signature) ↔ _
  rw [joined, List.forall_mem_append, List.forall_mem_map]
  simp only [hsame]
  refine and_congr_right fun hv => ⟨fun hnew m hm => ?_, fun hw m hm => hw m (List.mem_of_mem_filter hm)⟩
  -- A signature that is not added is one of the first table already.
  by_cases hknown : m.name ∈ v.macros.map Macro.name
  · obtain ⟨k, hk, hname⟩ := List.mem_map.1 hknown
    have hargs : k.signature.args = m.signature.args := (not_clash_iff.1 h).2.2 k hk m hm hname
    have hsignature : k.signature = m.signature := congrArg₂ Signature.mk hname hargs
    exact hsignature ▸ hv k hk
  · exact hnew m (List.mem_filter.2 ⟨hm, by simpa using hknown⟩)

theorem not_clash_join (h : ¬Clash v w) : ¬Clash (v.join w) u ↔ ¬Clash v u ∧ ¬Clash w u := by
  have hparameters := forall_parameters_join (v := v) (w := w)
    (P := fun name => ∀ m ∈ u.macros, name ≠ m.name)
  have hmacros := forall_macros_join h (P := fun s => ∀ p ∈ u.parameters, s.name ≠ p.name)
  have hargs := forall_macros_join h
    (P := fun s => ∀ m ∈ u.macros, s.name = m.name → s.args = m.signature.args)
  rw [not_clash_iff, not_clash_iff, not_clash_iff]
  simp only [Macro.name] at *
  rw [hparameters, hmacros, hargs]
  tauto

theorem WellFormed.join (hv : v.WellFormed) (hw : w.WellFormed) (h : ¬Clash v w) :
    (v.join w).WellFormed :=
  hv.merge ((merge_eq_ok hv hw).2 ⟨h, rfl⟩)

/-! ## Identities -/

theorem empty_join : empty.join v = v :=
  congrArg₂ SymbolTable.mk nil_joined nil_joined

theorem join_empty : v.join empty = v :=
  congrArg₂ SymbolTable.mk joined_nil joined_nil

theorem not_clash_empty : ¬Clash v empty := by
  simp [Clash, empty]

theorem not_clash_self (hv : v.WellFormed) : ¬Clash v v := by
  refine not_clash_iff.2 ⟨hv.disjoint, fun k hk p hp => (hv.disjoint p hp k hk).symm, ?_⟩
  intro k hk m hm hname
  have hsame := hv.macro?_of_mem hk
  rw [hname, hv.macro?_of_mem hm] at hsame
  rw [Option.some.inj hsame]

theorem join_self (hv : v.WellFormed)
    (hvalues : ∀ p ∈ v.parameters, ∀ x, Value.float x ∈ p.values → x.isNaN = false) : v.join v = v := by
  have hparameters : ∀ p ∈ v.parameters, p.join p = p := by
    intro p hp
    refine congrArg (Parameter.mk p.name) (union_self fun a ha => Value.beq_self ?_)
    rintro x rfl
    exact hvalues p hp x ha
  have hmacros : ∀ m ∈ v.macros, m.join m = m := fun m _ =>
    congrArg (Macro.mk m.signature) (union_self fun b _ => BEq.refl b)
  exact congrArg₂ SymbolTable.mk (joined_self hv.parameters_nodup hparameters)
    (joined_self hv.macros_nodup hmacros)

end SymbolTable

namespace IndexedTable

variable {a b c t : IndexedTable} {u v w : SymbolTable}

open SymbolTable (Clash not_clash_join clash_comm)

theorem merge_eq_ok (hv : v.WellFormed) (hw : w.WellFormed) :
    merge v.indexed w.indexed = .ok t ↔ ¬Clash v w ∧ (v.join w).indexed = t := by
  rw [merge_indexed_eq_ok hv]
  constructor
  · rintro ⟨u, hu, rfl⟩
    obtain ⟨hclash, rfl⟩ := (SymbolTable.merge_eq_ok hv hw).1 hu
    exact ⟨hclash, rfl⟩
  · rintro ⟨hclash, rfl⟩
    exact ⟨_, (SymbolTable.merge_eq_ok hv hw).2 ⟨hclash, rfl⟩, rfl⟩

/-! ## Three tables -/

theorem merge_left_eq_ok (hv : v.WellFormed) (hw : w.WellFormed) (hu : u.WellFormed) :
    (merge v.indexed w.indexed >>= fun x => merge x u.indexed) = .ok t ↔
      (¬Clash v w ∧ ¬Clash v u ∧ ¬Clash w u) ∧ ((v.join w).join u).indexed = t := by
  rw [Except.bind_eq_ok]
  constructor
  · rintro ⟨x, hx, ht⟩
    obtain ⟨hvw, rfl⟩ := (merge_eq_ok hv hw).1 hx
    obtain ⟨hclash, rfl⟩ := (merge_eq_ok (hv.join hw hvw) hu).1 ht
    exact ⟨⟨hvw, (not_clash_join hvw).1 hclash⟩, rfl⟩
  · rintro ⟨⟨hvw, hothers⟩, rfl⟩
    refine ⟨_, (merge_eq_ok hv hw).2 ⟨hvw, rfl⟩, (merge_eq_ok (hv.join hw hvw) hu).2 ⟨?_, rfl⟩⟩
    exact (not_clash_join hvw).2 hothers

theorem merge_right_eq_ok (hv : v.WellFormed) (hw : w.WellFormed) (hu : u.WellFormed) :
    (merge w.indexed u.indexed >>= merge v.indexed) = .ok t ↔
      (¬Clash v w ∧ ¬Clash v u ∧ ¬Clash w u) ∧ ((v.join w).join u).indexed = t := by
  have hclash : ¬Clash w u → (¬Clash v (w.join u) ↔ ¬Clash v w ∧ ¬Clash v u) := by
    intro hwu
    rw [clash_comm, not_clash_join hwu, clash_comm, clash_comm (v := u)]
  rw [Except.bind_eq_ok, SymbolTable.join_assoc]
  constructor
  · rintro ⟨x, hx, ht⟩
    obtain ⟨hwu, rfl⟩ := (merge_eq_ok hw hu).1 hx
    obtain ⟨hv', rfl⟩ := (merge_eq_ok hv (hw.join hu hwu)).1 ht
    exact ⟨⟨((hclash hwu).1 hv').1, ((hclash hwu).1 hv').2, hwu⟩, rfl⟩
  · rintro ⟨⟨hvw, hvu, hwu⟩, rfl⟩
    refine ⟨_, (merge_eq_ok hw hu).2 ⟨hwu, rfl⟩, (merge_eq_ok hv (hw.join hu hwu)).2 ⟨?_, rfl⟩⟩
    exact (hclash hwu).2 ⟨hvw, hvu⟩

theorem merge_fails_iff (hv : v.WellFormed) (hw : w.WellFormed) :
    (∃ fault, merge v.indexed w.indexed = .error fault) ↔ Clash v w := by
  constructor
  · rintro ⟨fault, hfault⟩
    by_contra hclash
    cases hfault.symm.trans ((merge_eq_ok hv hw).2 ⟨hclash, rfl⟩)
  · intro hclash
    cases hmerge : merge v.indexed w.indexed with
    | error fault => exact ⟨fault, rfl⟩
    | ok t => exact absurd hclash ((merge_eq_ok hv hw).1 hmerge).1

/-- Unions of tables that are built are a monoid: three tables have one union or none, however they are
put together, the empty table changes nothing, and neither does the table itself if all its floats are
numbers. There is no union of tables that clash. -/
theorem merge_monoid (ha : Built a) (hb : Built b) (hc : Built c) :
    (merge a b >>= fun t => merge t c).toOption = (merge b c >>= merge a).toOption ∧
      merge empty a = .ok a ∧ merge a empty = .ok a ∧
      ((∀ p ∈ a.parameters, ∀ x, Value.float x ∈ p.values → x.isNaN = false) → merge a a = .ok a) ∧
      ((∃ fault, merge a b = .error fault) ↔ Clash a.toSymbolTable b.toSymbolTable) := by
  obtain ⟨v, hv, rfl⟩ := ha.exists_indexed
  obtain ⟨w, hw, rfl⟩ := hb.exists_indexed
  obtain ⟨u, hu, rfl⟩ := hc.exists_indexed
  have hempty : SymbolTable.empty.WellFormed := SymbolTable.wellFormed_empty
  refine ⟨?_, ?_, ?_, fun hvalues => ?_, ?_⟩
  · refine Option.ext fun t => ?_
    rw [Except.toOption_eq_some, Except.toOption_eq_some, merge_left_eq_ok hv hw hu,
      merge_right_eq_ok hv hw hu]
  · refine (merge_eq_ok hempty hv).2 ⟨mt SymbolTable.Clash.symm SymbolTable.not_clash_empty, ?_⟩
    rw [SymbolTable.empty_join]
  · refine (merge_eq_ok hv hempty).2 ⟨SymbolTable.not_clash_empty, ?_⟩
    rw [SymbolTable.join_empty]
  · refine (merge_eq_ok hv hv).2 ⟨SymbolTable.not_clash_self hv, ?_⟩
    rw [SymbolTable.join_self hv hvalues]
  · exact merge_fails_iff hv hw

/-- A third table with the same parameter and macro. -/
def third : IndexedTable :=
  empty.declaring [⟨"z", [.text "w"]⟩, ⟨"x", [.float 0.5, .integer 3]⟩] [wrapper ["${a}!", "${a}?"]]

/-- A table whose macro takes other arguments. -/
def clashing : IndexedTable :=
  empty.declaring [⟨"x", [.integer 1]⟩] [⟨⟨"m", ["a", "b"]⟩, []⟩]

theorem merge_monoid_twice :
    (merge twice further >>= fun t => merge t third).toOption.map outline =
        some [("x", ["1", "0.5", "2", "3"]), ("y", ["v"]), ("z", ["w"]),
          ("m(a)", ["<{0}>", "{0}!", "{0}?"])] ∧
      (merge twice further >>= fun t => merge t third).toOption =
        (merge further third >>= merge twice).toOption ∧
      merge empty twice = .ok twice ∧ merge twice empty = .ok twice ∧ merge twice twice = .ok twice ∧
      ¬(∃ fault, merge twice further = .error fault) ∧
      (merge twice clashing >>= fun t => merge t third).toOption =
        (merge clashing third >>= merge twice).toOption ∧
      Clash twice.toSymbolTable clashing.toSymbolTable ∧ ∃ fault, merge twice clashing = .error fault := by
  have htwice : Built twice := built_declaring .empty
  have hfurther : Built further := built_declaring .empty
  have hthird : Built third := built_declaring .empty
  have hclashing : Built clashing := built_declaring .empty
  have hparameters : twice.parameters = [⟨"x", [.integer 1, .float 0.5]⟩] := rfl
  have hvalues : ∀ p ∈ twice.parameters, ∀ x, Value.float x ∈ p.values → x.isNaN = false := by
    rw [hparameters]
    rintro p (_ | ⟨_, ⟨⟩⟩) x hx
    obtain rfl : x = 0.5 := by simpa using hx
    decide +kernel
  have hclash : Clash twice.toSymbolTable clashing.toSymbolTable := by decide +kernel
  have hagree : ¬Clash twice.toSymbolTable further.toSymbolTable := by decide +kernel
  obtain ⟨hassoc, hleft, hright, hself, hfails⟩ := merge_monoid htwice hfurther hthird
  obtain ⟨hassoc', -, -, -, hfails'⟩ := merge_monoid htwice hclashing hthird
  exact ⟨by decide +kernel, hassoc, hleft, hright, hself hvalues, fun h => hagree (hfails.1 h), hassoc',
    hclash, hfails'.2 hclash⟩

end IndexedTable

end Variorum
