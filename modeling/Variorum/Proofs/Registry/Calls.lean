import Variorum.Registry.Basic

/-!
# Calls

A call is a look-up: it answers as the function that is found, or it fails because there is none.
-/

namespace Variorum.Registry

variable {r : Registry} {f : BuiltIn} {moduleName name : String} {args : List Value} {v : Value}

theorem call_eq : r.call name args =
    match r.global? name with
    | some f => f.apply args
    | none => .error (.unknownSymbol name (proposal (r.similar name))) := rfl

theorem exists_callQualified_eq (r : Registry) (moduleName name : String) (args : List Value) :
    ∃ similar, r.callQualified moduleName name args =
    match r.qualified? moduleName name with
    | some f => f.apply args
    | none => .error (.unknownSymbol s!"{moduleName}.{name}" similar) := by
  unfold callQualified qualified?
  cases r.moduleFunctions? moduleName with
  | none => exact ⟨none, rfl⟩
  | some functions =>
      refine ⟨proposal (Similarity.ranked name functions.keys), ?_⟩
      cases hf : Entries.get? (Text.lower name) functions with
      | none => simp only [Option.bind_some, hf]
      | some f => simp only [Option.bind_some, hf]

theorem callQualified_of_qualified? (h : r.qualified? moduleName name = some f) :
    r.callQualified moduleName name args = f.apply args := by
  obtain ⟨similar, hcall⟩ := r.exists_callQualified_eq moduleName name args
  rw [hcall, h]

theorem isSome_qualified? (h : r.callQualified moduleName name args = .ok v) :
    (r.qualified? moduleName name).isSome := by
  obtain ⟨similar, hcall⟩ := r.exists_callQualified_eq moduleName name args
  rw [hcall] at h
  split at h
  · rename_i f hf
    rw [hf]
    rfl
  · cases h

end Variorum.Registry
