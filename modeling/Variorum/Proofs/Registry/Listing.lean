import Mathlib.Data.Prod.Lex
import Mathlib.Data.String.Basic
import Variorum.Proofs.Registry.Entries
import Variorum.Proofs.Sorting

/-!
# What a registry lists

Functions are listed by their modules and names as they are written, while their keys are in lowercase.
Functions with different keys are written differently, so that the order leaves nothing open.
-/

namespace Variorum

/-! ## Similar names -/

namespace Similarity

variable {name b c : String} {candidates candidates' : List String}

/-- Where a name is proposed: first by its score, the highest first, then by its text. -/
def rank (name c : String) : ℕᵒᵈ ×ₗ String :=
  toLex (OrderDual.toDual (score (Text.lower name) c), c)

theorem rank_lt : rank name b < rank name c ↔
    score (Text.lower name) c < score (Text.lower name) b ∨
      score (Text.lower name) b = score (Text.lower name) c ∧ b < c := by
  rw [rank, rank, Prod.Lex.toLex_lt_toLex, OrderDual.toDual_lt_toDual, OrderDual.toDual_inj]

theorem rank_injective : Function.Injective (rank name) :=
  fun _ _ h => congrArg (fun p => (ofLex p).2) h

def scored (name c : String) : String × Nat :=
  (c, score (Text.lower name) c)

theorem precedes_iff : precedes (scored name b) (scored name c) = true ↔ rank name b ≤ rank name c := by
  rw [rank, rank, Prod.Lex.toLex_le_toLex, OrderDual.toDual_lt_toDual, OrderDual.toDual_inj, precedes,
    Bool.or_eq_true, Bool.and_eq_true, beq_iff_eq, decide_eq_true_eq, decide_eq_true_eq, scored, scored]

/-- The scores need not stand beside the names that are sorted by them. -/
theorem ranked_eq : ranked name candidates =
    (candidates.filter fun c => threshold ≤ (scored name c).2).mergeSort fun b c =>
      precedes (scored name b) (scored name c) := by
  have hsort : ∀ names : List String, (names.map (scored name)).mergeSort precedes =
      (names.mergeSort fun b c => precedes (scored name b) (scored name c)).map (scored name) := by
    refine fun names => (List.map_mergeSort ?_).symm
    exact fun _ _ _ _ => rfl
  have hranked : ranked name candidates = (((candidates.map (scored name)).filter
    fun p => threshold ≤ p.2).mergeSort precedes).map (·.1) := rfl
  have hfst : (fun p : String × Nat => p.1) ∘ scored name = id := rfl
  rw [hranked, List.filter_map, hsort, List.map_map, hfst, List.map_id, Function.comp_def]

theorem mem_ranked : c ∈ ranked name candidates ↔
    c ∈ candidates ∧ threshold ≤ score (Text.lower name) c := by
  rw [ranked_eq, List.mem_mergeSort, List.mem_filter, decide_eq_true_eq, scored]

theorem pairwise_ranked (h : candidates.Nodup) :
    (ranked name candidates).Pairwise fun b c => rank name b < rank name c := by
  have hle : ∀ b c, precedes (scored name b) (scored name c) = true ↔ rank name b ≤ rank name c :=
    fun _ _ => precedes_iff
  have hnodup : ((candidates.filter fun c => threshold ≤ (scored name c).2).map (rank name)).Nodup :=
    (h.filter _).map rank_injective
  have hsorted := pairwise_mergeSort_key hnodup hle
  rwa [← ranked_eq] at hsorted

/-- It does not matter in which order the candidates come. -/
theorem ranked_perm (h : candidates.Nodup) (hperm : candidates.Perm candidates') :
    ranked name candidates = ranked name candidates' := by
  refine eq_of_pairwise_key (pairwise_ranked h) (pairwise_ranked (hperm.nodup_iff.1 h)) fun c => ?_
  rw [mem_ranked, mem_ranked, hperm.mem_iff]

end Similarity

/-! ## Functions -/

namespace FunctionInfo

/-- The keys of the module of a function and of the function. -/
def key (i : FunctionInfo) : String × String :=
  (Text.lower i.moduleName, Text.lower i.name)

/-- Where a function is listed: first by its module, then by its name. -/
def position (i : FunctionInfo) : String ×ₗ String :=
  toLex (i.moduleName, i.name)

theorem listedBefore_iff {i j : FunctionInfo} :
    Registry.listedBefore i j = true ↔ i.position ≤ j.position := by
  rw [position, position, Prod.Lex.toLex_le_toLex, Registry.listedBefore, Bool.or_eq_true,
    Bool.and_eq_true, beq_iff_eq, decide_eq_true_eq, decide_eq_true_eq]

theorem position_lt {i j : FunctionInfo} : i.position < j.position ↔
    i.moduleName < j.moduleName ∨ i.moduleName = j.moduleName ∧ i.name < j.name :=
  Prod.Lex.toLex_lt_toLex

end FunctionInfo

namespace Registry

variable {r : Registry} {i : FunctionInfo} {f : BuiltIn} {moduleKey nameKey : String}
  {moduleName : Option String}

/-- The function under the key of a module and its own. -/
def at? (r : Registry) (moduleKey nameKey : String) : Option BuiltIn :=
  (Entries.get? moduleKey r.modules).bind (Entries.get? nameKey)

/-- No key stands twice, and the functions of the modules stand under their keys. -/
structure Keyed (r : Registry) : Prop where
  globals : r.globals.keys.Nodup
  modules : r.modules.keys.Nodup
  functions : ∀ m ∈ r.modules, m.2.keys.Nodup
  key_eq : ∀ m ∈ r.modules, ∀ f ∈ m.2, f.2.info.key = (m.1, f.1)

theorem Keyed.at?_eq_some_iff (h : r.Keyed) : r.at? moduleKey nameKey = some f ↔
    ∃ m ∈ r.modules, m.1 = moduleKey ∧ (nameKey, f) ∈ m.2 := by
  rw [at?, Option.bind_eq_some_iff]
  constructor
  · rintro ⟨functions, hfunctions, hf⟩
    exact ⟨_, Entries.mem_of_get? hfunctions, rfl, Entries.mem_of_get? hf⟩
  · rintro ⟨⟨_, functions⟩, hm, rfl, hf⟩
    exact ⟨functions, (Entries.get?_eq_some_iff h.modules).2 hm,
      (Entries.get?_eq_some_iff (h.functions _ hm)).2 hf⟩

/-- The functions that are listed, before they are brought into their order. -/
def listed (r : Registry) (moduleName : Option String) : List FunctionInfo :=
  (r.modules.filter fun m => moduleName.all (m.1 = Text.lower ·)).flatMap fun m =>
    m.2.map fun f => f.2.info

theorem list_eq : r.list moduleName = (r.listed moduleName).mergeSort listedBefore := by
  cases moduleName with
  | none =>
      have hall : (r.modules.filter fun m => Option.all (m.1 = Text.lower ·) none) = r.modules :=
        List.filter_eq_self.2 fun _ _ => rfl
      rw [listed, hall]
      rfl
  | some m => rfl

theorem Keyed.mem_list (h : r.Keyed) : i ∈ r.list moduleName ↔
    (∀ m ∈ moduleName, i.key.1 = Text.lower m) ∧ ∃ f, r.at? i.key.1 i.key.2 = some f ∧ f.info = i := by
  simp only [list_eq, listed, List.mem_mergeSort, List.mem_flatMap, List.mem_filter, List.mem_map,
    Option.all_eq_true, decide_eq_true_eq, h.at?_eq_some_iff]
  constructor
  · rintro ⟨m, ⟨hm, hmodule⟩, ⟨nameKey, f⟩, hf, rfl⟩
    have hkey := h.key_eq m hm _ hf
    rw [hkey]
    exact ⟨hmodule, f, ⟨m, hm, rfl, hf⟩, rfl⟩
  · rintro ⟨hmodule, f, ⟨m, hm, hkey, hf⟩, rfl⟩
    exact ⟨m, ⟨hm, hkey ▸ hmodule⟩, _, hf, rfl⟩

/-- The functions of a module stand under its key, and no other module has it. -/
theorem Keyed.nodup_key_listed (h : r.Keyed) : ((r.listed moduleName).map FunctionInfo.key).Nodup := by
  let modules := r.modules.filter fun m => moduleName.all (m.1 = Text.lower ·)
  have hsublist : modules.Sublist r.modules := List.filter_sublist
  have hkeys : (r.listed moduleName).map FunctionInfo.key =
      modules.flatMap fun m => m.2.keys.map fun nameKey => (m.1, nameKey) := by
    rw [listed, List.map_flatMap]
    refine List.flatMap_congr fun m hm => ?_
    rw [Entries.keys, List.map_map, List.map_map]
    exact List.map_congr_left fun f hf => h.key_eq m (hsublist.subset hm) f hf
  rw [hkeys, List.nodup_flatMap]
  constructor
  · intro m hm
    exact (h.functions m (hsublist.subset hm)).map (Prod.mk_right_injective m.1)
  · -- The pairs of two modules differ in the key of the module.
    have hmodules : (modules.map (·.1)).Nodup := h.modules.sublist (hsublist.map _)
    refine (List.pairwise_map.1 hmodules).imp fun {m m'} hne => ?_
    rintro key hkey hkey'
    obtain ⟨_, -, rfl⟩ := List.mem_map.1 hkey
    obtain ⟨_, -, hkey'⟩ := List.mem_map.1 hkey'
    exact hne (congrArg Prod.fst hkey').symm

theorem Keyed.pairwise_list (h : r.Keyed) :
    (r.list moduleName).Pairwise fun i j => i.position < j.position := by
  have hnodup : ((r.listed moduleName).map FunctionInfo.position).Nodup := by
    -- Functions that are written alike would stand under the same keys.
    refine List.Nodup.of_map (fun p => (Text.lower (ofLex p).1, Text.lower (ofLex p).2)) ?_
    rw [List.map_map]
    exact h.nodup_key_listed
  have hsorted := pairwise_mergeSort_key hnodup fun _ _ => FunctionInfo.listedBefore_iff
  rwa [← list_eq] at hsorted

theorem Keyed.nodup_key_list (h : r.Keyed) : ((r.list moduleName).map FunctionInfo.key).Nodup := by
  rw [list_eq]
  exact ((List.mergeSort_perm _ _).map _).nodup_iff.2 h.nodup_key_listed

theorem Keyed.key_eq_of_at? (h : r.Keyed) (hf : r.at? moduleKey nameKey = some f) :
    f.info.key = (moduleKey, nameKey) := by
  obtain ⟨m, hm, rfl, hmem⟩ := h.at?_eq_some_iff.1 hf
  exact h.key_eq m hm (nameKey, f) hmem

/-- A function is listed for each pair of keys. -/
theorem Keyed.mem_key_list (h : r.Keyed) : (moduleKey, nameKey) ∈ (r.list none).map FunctionInfo.key ↔
    (r.at? moduleKey nameKey).isSome = true := by
  rw [List.mem_map, Option.isSome_iff_exists]
  constructor
  · rintro ⟨i, hi, hkey⟩
    obtain ⟨-, f, hf, -⟩ := h.mem_list.1 hi
    rw [hkey] at hf
    exact ⟨f, hf⟩
  · rintro ⟨f, hf⟩
    have hkey := h.key_eq_of_at? hf
    refine ⟨f.info, h.mem_list.2 ⟨nofun, f, ?_, rfl⟩, hkey⟩
    rw [hkey]
    exact hf

theorem Keyed.pairwise_moduleNames (h : r.Keyed) : r.moduleNames.Pairwise (· < ·) := by
  have hnodup : (r.modules.keys.map id).Nodup := by
    rw [List.map_id]
    exact h.modules
  exact pairwise_mergeSort_key hnodup fun _ _ => decide_eq_true_iff

theorem mem_moduleNames : moduleKey ∈ r.moduleNames ↔ moduleKey ∈ r.modules.keys :=
  List.mem_mergeSort

end Registry

end Variorum
