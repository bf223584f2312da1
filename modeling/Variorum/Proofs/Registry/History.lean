import Mathlib.Data.List.Induction
import Variorum.Proofs.Registry.Calls
import Variorum.Proofs.Registry.Listing

/-!
# How a registry came about

A registry answers by what was registered last. A registration for a module alone replaces the function of
the module, but not the global one, which may come from another module.
-/

namespace Variorum

/-! ## Registrations -/

/-- A function is registered under its module, and globally or not. -/
structure Registration where
  function : BuiltIn
  isGlobal : Bool

namespace Registration

variable {e : Registration} {history : List Registration}

def moduleKey (e : Registration) : String :=
  Text.lower e.function.info.moduleName

def nameKey (e : Registration) : String :=
  Text.lower e.function.info.name

/-- The function goes under the key in the module of the key. -/
def hasKeys (moduleKey nameKey : String) (e : Registration) : Bool :=
  e.moduleKey = moduleKey && e.nameKey = nameKey

def isGlobalAs (nameKey : String) (e : Registration) : Bool :=
  e.isGlobal && e.nameKey = nameKey

/-- The function of the last registration of a kind. -/
def last? (p : Registration → Bool) (history : List Registration) : Option BuiltIn :=
  (history.reverse.find? p).map (·.function)

theorem last?_append {p : Registration → Bool} :
    last? p (history ++ [e]) = if p e then some e.function else last? p history := by
  rw [last?, List.reverse_append, List.reverse_singleton, List.singleton_append, List.find?_cons]
  split <;> simp_all [last?]

theorem isSome_last? {p : Registration → Bool} :
    (last? p history).isSome = true ↔ ∃ e ∈ history, p e = true := by
  rw [last?, Option.isSome_map, List.find?_isSome]
  simp only [List.mem_reverse]

end Registration

namespace Registry

variable {r : Registry} {e : Registration} {f : BuiltIn} {history : List Registration}
  {moduleKey nameKey : String}

def register (r : Registry) (e : Registration) : Registry :=
  if e.isGlobal then r.add e.function else r.addToModule e.function

def ofHistory (history : List Registration) : Registry :=
  history.foldl register empty

theorem ofHistory_append : ofHistory (history ++ [e]) = (ofHistory history).register e :=
  List.foldl_concat ..

/-! ## One registration -/

theorem globals_register : (r.register e).globals =
    if e.isGlobal then Entries.insert e.nameKey e.function r.globals else r.globals := by
  unfold register
  split <;> rfl

/-- In its module a function is registered in the same way, globally or not. -/
theorem modules_register : (r.register e).modules = Entries.insert e.moduleKey
    (Entries.insert e.nameKey e.function ((Entries.get? e.moduleKey r.modules).getD [])) r.modules := by
  unfold register
  split <;> rfl

theorem get?_globals_register : Entries.get? nameKey (r.register e).globals =
    if e.isGlobalAs nameKey then some e.function else Entries.get? nameKey r.globals := by
  rw [globals_register, Registration.isGlobalAs]
  cases e.isGlobal with
  | true => simp [Entries.get?_insert]
  | false => rfl

theorem isSome_modules_register : (Entries.get? moduleKey (r.register e).modules).isSome = true ↔
    e.moduleKey = moduleKey ∨ (Entries.get? moduleKey r.modules).isSome = true := by
  rw [modules_register, Entries.get?_insert]
  split
  · rename_i hkey
    exact iff_of_true rfl (.inl hkey)
  · rename_i hkey
    exact (or_iff_right hkey).symm

/-- A module that is not there has no functions. -/
theorem get?_getD : Entries.get? nameKey ((Entries.get? moduleKey r.modules).getD []) =
    r.at? moduleKey nameKey := by
  unfold at?
  cases Entries.get? moduleKey r.modules <;> rfl

theorem at?_register : (r.register e).at? moduleKey nameKey =
    if e.hasKeys moduleKey nameKey then some e.function else r.at? moduleKey nameKey := by
  rw [at?, modules_register, Entries.get?_insert, Registration.hasKeys]
  by_cases hmodule : e.moduleKey = moduleKey
  · subst hmodule
    rw [if_pos rfl, Option.bind_some, Entries.get?_insert, get?_getD, decide_eq_true rfl, Bool.true_and]
    simp only [decide_eq_true_eq]
  · rw [if_neg hmodule, decide_eq_false hmodule, Bool.false_and]
    rfl

/-! ## Keys -/

theorem keyed_empty : empty.Keyed where
  globals := .nil
  modules := .nil
  functions := List.forall_mem_nil _
  key_eq := List.forall_mem_nil _

theorem Keyed.functions_getD (h : r.Keyed) (moduleKey : String) :
    (Entries.keys ((Entries.get? moduleKey r.modules).getD [])).Nodup ∧
      ∀ f ∈ (Entries.get? moduleKey r.modules).getD [], f.2.info.key = (moduleKey, f.1) := by
  cases hfunctions : Entries.get? moduleKey r.modules with
  | none => exact ⟨.nil, List.forall_mem_nil _⟩
  | some functions =>
      have hmem := Entries.mem_of_get? hfunctions
      exact ⟨h.functions _ hmem, h.key_eq _ hmem⟩

theorem Keyed.register (h : r.Keyed) : (r.register e).Keyed := by
  obtain ⟨hnodup, hkeys⟩ := h.functions_getD e.moduleKey
  constructor
  · rw [globals_register]
    split
    · exact Entries.nodup_insert h.globals
    · exact h.globals
  · rw [modules_register]
    exact Entries.nodup_insert h.modules
  · rw [modules_register]
    intro m hm
    rcases Entries.mem_insert hm with rfl | hm
    · exact Entries.nodup_insert hnodup
    · exact h.functions m hm
  · rw [modules_register]
    intro m hm f hf
    rcases Entries.mem_insert hm with rfl | hm
    · rcases Entries.mem_insert hf with rfl | hf
      · rfl
      · exact hkeys f hf
    · exact h.key_eq m hm f hf

theorem keyed_ofHistory : (ofHistory history).Keyed := by
  induction history using List.reverseRecOn with
  | nil => exact keyed_empty
  | append_singleton history e ih =>
      rw [ofHistory_append]
      exact ih.register

/-! ## All registrations -/

theorem at?_ofHistory : (ofHistory history).at? moduleKey nameKey =
    Registration.last? (Registration.hasKeys moduleKey nameKey) history := by
  induction history using List.reverseRecOn with
  | nil => rfl
  | append_singleton history e ih => rw [ofHistory_append, at?_register, Registration.last?_append, ih]

theorem get?_globals_ofHistory : Entries.get? nameKey (ofHistory history).globals =
    Registration.last? (Registration.isGlobalAs nameKey) history := by
  induction history using List.reverseRecOn with
  | nil => rfl
  | append_singleton history e ih =>
      rw [ofHistory_append, get?_globals_register, Registration.last?_append, ih]

theorem qualified?_ofHistory {moduleName name : String} :
    (ofHistory history).qualified? moduleName name = Registration.last?
      (Registration.hasKeys (Text.lower moduleName) (Text.lower name)) history :=
  at?_ofHistory

theorem global?_ofHistory {name : String} : (ofHistory history).global? name =
    Registration.last? (Registration.isGlobalAs (Text.lower name)) history :=
  get?_globals_ofHistory

theorem isSome_modules_ofHistory :
    (Entries.get? moduleKey (ofHistory history).modules).isSome = true ↔
      ∃ e ∈ history, e.moduleKey = moduleKey := by
  induction history using List.reverseRecOn with
  | nil => simp [ofHistory, empty, Entries.get?_nil]
  | append_singleton history e ih =>
      rw [ofHistory_append, isSome_modules_register, ih]
      simp [or_and_right, exists_or, or_comm]

/-! ## Answers -/

/-- The registry answers every question by what was registered last. -/
structure Follows (r : Registry) (history : List Registration) : Prop where
  qualified : ∀ moduleName name, r.qualified? moduleName name = Registration.last?
    (Registration.hasKeys (Text.lower moduleName) (Text.lower name)) history
  global : ∀ name, r.global? name =
    Registration.last? (Registration.isGlobalAs (Text.lower name)) history
  hasModule : ∀ moduleName, r.hasModule moduleName = true ↔
    ∃ e ∈ history, e.moduleKey = Text.lower moduleName
  call : ∀ name args, ∃ similar, r.call name args =
    match Registration.last? (Registration.isGlobalAs (Text.lower name)) history with
    | some f => f.apply args
    | none => .error (.unknownSymbol name similar)
  callQualified : ∀ moduleName name args, ∃ similar, r.callQualified moduleName name args =
    match Registration.last?
      (Registration.hasKeys (Text.lower moduleName) (Text.lower name)) history with
    | some f => f.apply args
    | none => .error (.unknownSymbol s!"{moduleName}.{name}" similar)
  list : ∀ moduleName, r.list (some moduleName) =
    (r.list none).filter fun i => Text.lower i.moduleName = Text.lower moduleName

/-- The functions of one module are those of all modules that belong to it, in the same order. -/
theorem Keyed.list_filter (h : r.Keyed) (moduleName : String) : r.list (some moduleName) =
    (r.list none).filter fun i => Text.lower i.moduleName = Text.lower moduleName := by
  refine eq_of_pairwise_key h.pairwise_list (h.pairwise_list.filter _) fun i => ?_
  rw [List.mem_filter, h.mem_list, h.mem_list, decide_eq_true_eq]
  simp [FunctionInfo.key, and_comm]

/-- Whatever was registered before, in whatever order, a registry answers by what was registered last
under a name. -/
theorem ofHistory_follows (history : List Registration) : (ofHistory history).Follows history where
  qualified _ _ := qualified?_ofHistory
  global _ := global?_ofHistory
  hasModule _ := isSome_modules_ofHistory
  call name args := by
    rw [← global?_ofHistory]
    exact ⟨_, call_eq⟩
  callQualified moduleName name args := by
    rw [← qualified?_ofHistory]
    exact exists_callQualified_eq _ moduleName name args
  list := keyed_ofHistory.list_filter

/-- A function that answers with its name. -/
def namesake (moduleName name : String) : BuiltIn where
  info := { name, moduleName, description := "", usage := "", args := [], returns := "str" }
  apply _ := .ok (.text name)

example :
    let r := ofHistory [⟨namesake "voice" "shout", true⟩, ⟨namesake "Voice" "Shout", false⟩]
    (r.global? "SHOUT").map (·.info.name) = some "shout" ∧
      (r.qualified? "VOICE" "SHOUT").map (·.info.name) = some "Shout" := by
  decide +kernel

end Registry

end Variorum
