import Variorum.Proofs.Registry.History

/-!
# The order of entries

The entries of a registry, and those of each of its modules, may stand in any order. None of its answers
depends on it: what is listed and what is proposed is sorted, and no two of the sorted entries are alike.
-/

namespace Variorum.Registry

variable {r s : Registry} {history : List Registration} {moduleKey nameKey name : String}
  {moduleName : Option String}

/-! ## Other orders -/

/-- The same entries in another order, also within the modules. -/
structure Reordered (r s : Registry) : Prop where
  globals : r.globals.Perm s.globals
  keys : r.modules.keys.Perm s.modules.keys
  functions : ∀ m ∈ r.modules, ∃ m' ∈ s.modules, m'.1 = m.1 ∧ m.2.Perm m'.2

/-- The registry with all entries in the opposite order. -/
def reversed (r : Registry) : Registry where
  globals := r.globals.reverse
  modules := r.modules.reverse.map fun m => (m.1, m.2.reverse)

namespace Reordered

theorem refl (r : Registry) : r.Reordered r where
  globals := .refl _
  keys := .refl _
  functions m hm := ⟨m, hm, rfl, .refl _⟩

theorem reversed (r : Registry) : r.Reordered r.reversed where
  globals := (List.reverse_perm _).symm
  keys := by
    rw [Registry.reversed, Entries.keys, Entries.keys, List.map_map, List.map_reverse]
    exact (List.reverse_perm _).symm
  functions m hm := by
    refine ⟨(m.1, m.2.reverse), List.mem_map.2 ⟨m, List.mem_reverse.2 hm, rfl⟩, rfl, ?_⟩
    exact (List.reverse_perm _).symm

/-- A key has a module in both registries or in none, and then with the same functions. -/
theorem get?_modules (h : r.Reordered s) (hr : r.Keyed) (moduleKey : String) :
    (Entries.get? moduleKey r.modules = none ∧ Entries.get? moduleKey s.modules = none) ∨
      ∃ functions functions', Entries.get? moduleKey r.modules = some functions ∧
        Entries.get? moduleKey s.modules = some functions' ∧ functions.Perm functions' := by
  have hkeys : s.modules.keys.Nodup := h.keys.nodup_iff.1 hr.modules
  cases hfunctions : Entries.get? moduleKey r.modules with
  | none =>
      have hkey : moduleKey ∉ s.modules.keys := by
        rw [← h.keys.mem_iff, ← Entries.isSome_get?, hfunctions]
        exact Bool.false_ne_true
      rw [← Entries.isSome_get?, Option.not_isSome_iff_eq_none] at hkey
      exact .inl ⟨rfl, hkey⟩
  | some functions =>
      obtain ⟨m, hm, rfl, hperm⟩ := h.functions _ (Entries.mem_of_get? hfunctions)
      exact .inr ⟨functions, m.2, rfl, (Entries.get?_eq_some_iff hkeys).2 hm, hperm⟩

theorem exists_module (h : r.Reordered s) (hr : r.Keyed) {m : String × Entries BuiltIn}
    (hm : m ∈ s.modules) : ∃ functions, (m.1, functions) ∈ r.modules ∧ functions.Perm m.2 := by
  have hget := (Entries.get?_eq_some_iff (h.keys.nodup_iff.1 hr.modules)).2 hm
  rcases h.get?_modules hr m.1 with ⟨-, hnone⟩ | ⟨functions, functions', hfunctions, hsome, hperm⟩
  · rw [hget] at hnone
    cases hnone
  · rw [hget] at hsome
    cases hsome
    exact ⟨functions, Entries.mem_of_get? hfunctions, hperm⟩

theorem keyed (h : r.Reordered s) (hr : r.Keyed) : s.Keyed where
  globals := (h.globals.map _).nodup_iff.1 hr.globals
  modules := h.keys.nodup_iff.1 hr.modules
  functions m hm := by
    obtain ⟨functions, hfunctions, hperm⟩ := h.exists_module hr hm
    exact (hperm.map _).nodup_iff.1 (hr.functions _ hfunctions)
  key_eq m hm f hf := by
    obtain ⟨functions, hfunctions, hperm⟩ := h.exists_module hr hm
    exact hr.key_eq _ hfunctions f (hperm.mem_iff.2 hf)

/-! ## Answers -/

theorem global?_eq (h : r.Reordered s) (hr : r.Keyed) : r.global? name = s.global? name :=
  Entries.get?_perm hr.globals h.globals

theorem at?_eq (h : r.Reordered s) (hr : r.Keyed) :
    r.at? moduleKey nameKey = s.at? moduleKey nameKey := by
  unfold at?
  rcases h.get?_modules hr moduleKey with ⟨hr', hs'⟩ | ⟨functions, functions', hr', hs', hperm⟩
  · rw [hr', hs']
  · rw [hr', hs', Option.bind_some, Option.bind_some]
    exact Entries.get?_perm (hr.functions _ (Entries.mem_of_get? hr')) hperm

theorem list_eq (h : r.Reordered s) (hr : r.Keyed) : r.list moduleName = s.list moduleName := by
  have hs := h.keyed hr
  refine eq_of_pairwise_key hr.pairwise_list hs.pairwise_list fun i => ?_
  rw [hr.mem_list, hs.mem_list, h.at?_eq hr]

theorem moduleNames_eq (h : r.Reordered s) (hr : r.Keyed) : r.moduleNames = s.moduleNames := by
  refine hr.pairwise_moduleNames.eq_of_mem_iff (h.keyed hr).pairwise_moduleNames fun key => ?_
  rw [mem_moduleNames, mem_moduleNames, h.keys.mem_iff]

theorem similar_eq (h : r.Reordered s) (hr : r.Keyed) : r.similar name = s.similar name :=
  Similarity.ranked_perm hr.globals (h.globals.map _)

theorem call_eq {args : List Value} (h : r.Reordered s) (hr : r.Keyed) :
    r.call name args = s.call name args := by
  rw [Registry.call_eq, Registry.call_eq, h.global?_eq hr, h.similar_eq hr]

/-- What is proposed for a function of a module is similar to its name among those of the module. -/
theorem callQualified_eq {moduleName : String} {args : List Value} (h : r.Reordered s) (hr : r.Keyed) :
    r.callQualified moduleName name args = s.callQualified moduleName name args := by
  unfold callQualified moduleFunctions?
  rcases h.get?_modules hr (Text.lower moduleName) with
    ⟨hr', hs'⟩ | ⟨functions, functions', hr', hs', hperm⟩
  · rw [hr', hs']
  · have hnodup := hr.functions _ (Entries.mem_of_get? hr')
    have hranked : Similarity.ranked name functions.keys = Similarity.ranked name functions'.keys :=
      Similarity.ranked_perm hnodup (hperm.map _)
    rw [hr', hs']
    dsimp only
    rw [Entries.get?_perm hnodup hperm, hranked]

end Reordered

/-! ## The one order -/

/-- All that a registry is asked for. -/
structure Answers where
  list : Option String → List FunctionInfo
  moduleNames : List String
  similar : String → List String
  call : String → List Value → Except Failure Value
  callQualified : String → String → List Value → Except Failure Value
  summary : String

def answers (r : Registry) : Answers where
  list := r.list
  moduleNames := r.moduleNames
  similar := r.similar
  call := r.call
  callQualified := r.callQualified
  summary := r.summary

theorem Reordered.answers_eq (h : r.Reordered s) (hr : r.Keyed) : r.answers = s.answers := by
  have hlist : r.list = s.list := funext fun _ => h.list_eq hr
  have hsimilar : r.similar = s.similar := funext fun _ => h.similar_eq hr
  have hcall : r.call = s.call := funext fun _ => funext fun _ => h.call_eq hr
  have hqualified : r.callQualified = s.callQualified :=
    funext fun _ => funext fun _ => funext fun _ => h.callQualified_eq hr
  have hsummary : r.summary = s.summary := by
    unfold Registry.summary
    rw [h.globals.length_eq, h.moduleNames_eq hr]
  rw [answers, answers, hlist, h.moduleNames_eq hr, hsimilar, hcall, hqualified, hsummary]

/-- What is listed and what is proposed stands in the only order that there is for it: functions by their
modules and names, one for each pair of keys, and similar names by their scores. -/
structure Ordered (r : Registry) (history : List Registration) : Prop where
  list : (r.list none).Pairwise fun i j =>
    i.moduleName < j.moduleName ∨ i.moduleName = j.moduleName ∧ i.name < j.name
  nodup_keys : ((r.list none).map FunctionInfo.key).Nodup
  mem_keys : ∀ moduleKey nameKey, (moduleKey, nameKey) ∈ (r.list none).map FunctionInfo.key ↔
    ∃ e ∈ history, e.hasKeys moduleKey nameKey = true
  mem_similar : ∀ name c, c ∈ r.similar name ↔
    (∃ e ∈ history, e.isGlobalAs c = true) ∧ 10 ≤ Similarity.score (Text.lower name) c
  similar : ∀ name, (r.similar name).Pairwise fun b c =>
    Similarity.score (Text.lower name) c < Similarity.score (Text.lower name) b ∨
      Similarity.score (Text.lower name) b = Similarity.score (Text.lower name) c ∧ b < c

theorem Reordered.ordered (h : (ofHistory history).Reordered s) : s.Ordered history := by
  have hr : (ofHistory history).Keyed := keyed_ofHistory
  have hs := h.keyed hr
  constructor
  · exact hs.pairwise_list.imp FunctionInfo.position_lt.1
  · exact hs.nodup_key_list
  · intro moduleKey nameKey
    rw [hs.mem_key_list, ← h.at?_eq hr, at?_ofHistory, Registration.isSome_last?]
  · intro name c
    have hkeys : (ofHistory history).globals.keys.Perm s.globals.keys := h.globals.map _
    rw [similar, Similarity.mem_ranked, ← hkeys.mem_iff, ← Entries.isSome_get?, get?_globals_ofHistory,
      Registration.isSome_last?, Similarity.threshold]
  · exact fun name => (Similarity.pairwise_ranked hs.globals).imp Similarity.rank_lt.1

/-- However the entries of a registry and those of its modules are ordered, its answers are the same, and
what they list stands in the only order that there is for it. -/
theorem answers_eq_of_reordered {r s : Registry} (hr : (ofHistory history).Reordered r)
    (hs : (ofHistory history).Reordered s) : r.answers = s.answers ∧ r.Ordered history := by
  have hr' := hr.answers_eq keyed_ofHistory
  have hs' := hs.answers_eq keyed_ofHistory
  exact ⟨hr'.symm.trans hs', hr.ordered⟩

def voiceHistory : List Registration :=
  [⟨namesake "voice" "shout", true⟩, ⟨namesake "Voice" "Whisper", false⟩,
    ⟨namesake "text" "short", true⟩]

theorem answers_eq_of_reordered_voiceHistory : ∃ r s,
    (ofHistory voiceHistory).Reordered r ∧ (ofHistory voiceHistory).Reordered s ∧
      r.globals.keys = ["shout", "short"] ∧ s.globals.keys = ["short", "shout"] ∧
      r.answers = s.answers := by
  let r := ofHistory voiceHistory
  have hr := Reordered.refl r
  have hs := Reordered.reversed r
  exact ⟨r, r.reversed, hr, hs, by decide +kernel, by decide +kernel,
    (answers_eq_of_reordered hr hs).1⟩

end Variorum.Registry
