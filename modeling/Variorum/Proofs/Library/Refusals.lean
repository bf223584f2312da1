import Variorum.Evaluation.Arithmetic
import Variorum.Library.Standard
import Variorum.Proofs.Except
import Variorum.Proofs.Registry.Calls
import Variorum.Proofs.Registry.Entries
import Variorum.Slice

/-!
# How operations and functions refuse

What operators, casts, slices and the functions of a registry fail with. Operators and library functions
have nothing to say but that the number, the types or the values of their arguments are wrong.
-/

namespace Variorum

namespace Failure

/-- The failure concerns the arguments of one function: their number, their types or their values. -/
def OfArguments : Failure → Prop
  | .typeMismatch _ | .wrongArity .. | .invalidArgument _ => True
  | .unknownSymbol .. | .cyclicExpansion .. | .malformedDefinition _ | .internal _ => False

/-- The failure says that macro calls nest too deep. -/
def IsCyclic : Failure → Prop
  | .cyclicExpansion .. => True
  | _ => False

theorem OfArguments.not_isCyclic {f : Failure} (h : f.OfArguments) : ¬f.IsCyclic := by
  cases f with
  | cyclicExpansion => exact h.elim
  | _ => exact not_false

end Failure

/-! ## Operators, casts and slices -/

namespace Value

theorem integerOp_failsOnly {op : BinaryOp} {a b : Int64} :
    (integerOp op a b).FailsOnly Failure.OfArguments := by
  unfold integerOp
  split
  · exact Except.failsOnly_error trivial
  · split
    · exact Except.failsOnly_error trivial
    · split
      · exact Except.failsOnly_ok
      · exact Except.failsOnly_error trivial

theorem floatOp_failsOnly {op : BinaryOp} {a b : Float} :
    (floatOp op a b).FailsOnly Failure.OfArguments := by
  unfold floatOp
  dsimp only
  split
  · exact Except.failsOnly_error trivial
  · split
    · exact Except.failsOnly_ok
    · exact Except.failsOnly_error trivial

theorem binary_failsOnly {op : BinaryOp} {a b : Value} :
    (binary op a b).FailsOnly Failure.OfArguments := by
  unfold binary
  split
  · exact integerOp_failsOnly
  · split
    · exact floatOp_failsOnly
    · split
      · exact Except.failsOnly_ok
      · exact Except.failsOnly_error trivial

theorem negate_failsOnly {v : Value} : (negate v).FailsOnly Failure.OfArguments := by
  unfold negate
  split
  · split
    · exact Except.failsOnly_ok
    · exact Except.failsOnly_error trivial
  · exact Except.failsOnly_ok
  · exact Except.failsOnly_error trivial

theorem castTo_failsOnly {type : CastType} {v : Value} :
    (castTo type v).FailsOnly Failure.OfArguments := by
  unfold castTo
  dsimp only
  split
  · exact Except.failsOnly_ok
  · split
    · exact Except.failsOnly_ok
    · exact Except.failsOnly_error trivial
  · split
    · split
      · exact Except.failsOnly_ok
      · exact Except.failsOnly_error trivial
    · exact Except.failsOnly_error trivial

end Value

theorem Slice.select_failsOnly {α : Type} {xs : List α} {start stop : Option Int} {step : Int} :
    (select xs start stop step).FailsOnly Failure.OfArguments := by
  unfold select
  split
  · exact Except.failsOnly_error trivial
  · exact Except.failsOnly_ok

/-! ## Registered functions -/

namespace Registry

variable {r : Registry} {f g : BuiltIn} {P : Failure → Prop}

/-- A function can be called, globally or by its module. -/
def Holds (r : Registry) (f : BuiltIn) : Prop :=
  (∃ key, (key, f) ∈ r.globals) ∨ ∃ m ∈ r.modules, ∃ key, (key, f) ∈ m.2

/-- Whatever the functions of a registry fail with has a property. -/
def FailsOnly (P : Failure → Prop) (r : Registry) : Prop :=
  ∀ f, r.Holds f → ∀ args, (f.apply args).FailsOnly P

theorem FailsOnly.mono {Q : Failure → Prop} (hr : r.FailsOnly P) (h : ∀ f, P f → Q f) :
    r.FailsOnly Q :=
  fun f hf args => (hr f hf args).mono h

theorem holds_add (h : (r.add g).Holds f) : f = g ∨ r.Holds f := by
  rcases h with ⟨key, h⟩ | ⟨m, hm, key, h⟩
  · rcases Entries.mem_insert h with he | h
    · cases he
      exact .inl rfl
    · exact .inr (.inl ⟨key, h⟩)
  · rcases Entries.mem_insert hm with rfl | hm
    · rcases Entries.mem_insert h with he | h
      · cases he
        exact .inl rfl
      · cases hfunctions : Entries.get? (Text.lower g.info.moduleName) r.modules with
        | none =>
            rw [hfunctions] at h
            cases h
        | some functions =>
            rw [hfunctions] at h
            have hk := Entries.mem_of_get? hfunctions
            exact .inr (.inr ⟨_, hk, key, h⟩)
    · exact .inr (.inr ⟨m, hm, key, h⟩)

theorem holds_foldl_add {fs : List BuiltIn} (h : (fs.foldl add r).Holds f) : f ∈ fs ∨ r.Holds f := by
  induction fs generalizing r with
  | nil => exact .inr h
  | cons g fs ih =>
      rcases ih h with h | h
      · exact .inl (List.mem_cons_of_mem g h)
      · refine (holds_add h).imp_left ?_
        rintro rfl
        exact List.mem_cons_self

theorem not_holds_empty : ¬empty.Holds f := by
  rintro (⟨_, ⟨⟩⟩ | ⟨_, ⟨⟩, _⟩)

variable {name moduleName : String} {args : List Value}

/-- A call fails as the function does, or because there is none. -/
theorem FailsOnly.call (hr : r.FailsOnly P) (hunknown : ∀ name similar, P (.unknownSymbol name similar)) :
    (r.call name args).FailsOnly P := by
  unfold Registry.call
  split
  · rename_i f hf
    exact hr f (.inl ⟨_, Entries.mem_of_get? hf⟩) args
  · exact Except.failsOnly_error (hunknown _ _)

theorem FailsOnly.callQualified (hr : r.FailsOnly P)
    (hunknown : ∀ name similar, P (.unknownSymbol name similar)) :
    (r.callQualified moduleName name args).FailsOnly P := by
  obtain ⟨similar, hcall⟩ := r.exists_callQualified_eq moduleName name args
  rw [hcall]
  split
  · rename_i f hf
    obtain ⟨functions, hfunctions, hf⟩ := Option.bind_eq_some_iff.1 hf
    have hmodule := Entries.mem_of_get? hfunctions
    exact hr f (.inr ⟨_, hmodule, _, Entries.mem_of_get? hf⟩) args
  · exact Except.failsOnly_error (hunknown _ _)

end Registry

/-! ## The library -/

namespace Library

variable {function arg : String} {v : Value} {args : List Value}

theorem requireInteger_failsOnly : (requireInteger function arg v).FailsOnly Failure.OfArguments := by
  unfold requireInteger
  split
  · exact Except.failsOnly_ok
  · exact Except.failsOnly_error trivial

theorem requireCount_failsOnly : (requireCount function arg v).FailsOnly Failure.OfArguments := by
  refine requireInteger_failsOnly.bind fun i _ => ?_
  split
  · exact Except.failsOnly_error trivial
  · exact Except.failsOnly_ok

theorem requireNumber_failsOnly : (requireNumber function arg v).FailsOnly Failure.OfArguments := by
  unfold requireNumber
  split
  · exact Except.failsOnly_ok
  · exact Except.failsOnly_error trivial

theorem requireLength_failsOnly {unit count : Nat} :
    (requireLength function unit count).FailsOnly Failure.OfArguments := by
  unfold requireLength
  split
  · exact Except.failsOnly_ok
  · exact Except.failsOnly_error trivial

theorem finite_failsOnly {x : Float} : (finite function x).FailsOnly Failure.OfArguments := by
  unfold finite
  split
  · exact Except.failsOnly_ok
  · exact Except.failsOnly_error trivial

theorem fitting_failsOnly {n : Int} : (fitting function n).FailsOnly Failure.OfArguments := by
  unfold fitting
  split
  · exact Except.failsOnly_ok
  · exact Except.failsOnly_error trivial

theorem applyAbs_failsOnly : (applyAbs args).FailsOnly Failure.OfArguments := by
  unfold applyAbs
  split
  · exact fitting_failsOnly
  · exact requireNumber_failsOnly.bind fun _ _ => finite_failsOnly
  · exact Except.failsOnly_error trivial

theorem bestOf_failsOnly {keeps : Float → Float → Bool} {best : Value} {vs : List Value} :
    (bestOf function keeps best vs).FailsOnly Failure.OfArguments := by
  induction vs generalizing best with
  | nil => exact Except.failsOnly_ok
  | cons v vs ih =>
      exact requireNumber_failsOnly.bind fun _ _ => requireNumber_failsOnly.bind fun _ _ => ih

theorem applyExtremum_failsOnly {keeps : Float → Float → Bool} :
    (applyExtremum function keeps args).FailsOnly Failure.OfArguments := by
  unfold applyExtremum
  split
  · exact Except.failsOnly_error trivial
  · refine requireNumber_failsOnly.bind fun _ _ => bestOf_failsOnly.bind fun best _ => ?_
    split
    · split <;> exact Except.failsOnly_ok
    · exact Except.failsOnly_ok

theorem applyPow_failsOnly : (applyPow args).FailsOnly Failure.OfArguments := by
  unfold applyPow
  split
  · refine requireNumber_failsOnly.bind fun b _ => requireNumber_failsOnly.bind fun e _ => ?_
    split
    · split
      · split
        · exact Except.failsOnly_ok
        · exact Except.failsOnly_error trivial
      · exact finite_failsOnly
    · exact finite_failsOnly
  · exact Except.failsOnly_error trivial

theorem applyRounding_failsOnly {rounded : Float → Int} :
    (applyRounding function rounded args).FailsOnly Failure.OfArguments := by
  unfold applyRounding
  split
  · exact Except.failsOnly_ok
  · refine requireNumber_failsOnly.bind fun x _ => ?_
    dsimp only
    split
    · exact Except.failsOnly_ok
    · exact Except.failsOnly_error trivial
  · exact Except.failsOnly_error trivial

theorem onText_failsOnly {name description returns : String} {examples : List String}
    {f : String → Value} :
    ((onText name description returns examples f).apply args).FailsOnly Failure.OfArguments := by
  unfold onText
  dsimp only
  split
  · exact Except.failsOnly_ok
  · exact Except.failsOnly_error trivial

theorem applyReplace_failsOnly : (applyReplace args).FailsOnly Failure.OfArguments := by
  unfold applyReplace
  split
  · split
    · exact Except.failsOnly_error trivial
    · exact Except.failsOnly_ok
  · exact Except.failsOnly_error trivial

theorem applyRepeat_failsOnly : (applyRepeat args).FailsOnly Failure.OfArguments := by
  unfold applyRepeat
  split
  · exact requireCount_failsOnly.bind fun _ _ => requireLength_failsOnly.bind fun _ _ =>
      Except.failsOnly_ok
  · exact Except.failsOnly_error trivial

theorem applyJoin_failsOnly : (applyJoin args).FailsOnly Failure.OfArguments := by
  unfold applyJoin
  split
  · exact Except.failsOnly_ok
  · exact Except.failsOnly_error trivial

theorem fillChar_failsOnly {fill : Option Value} :
    (fillChar function fill).FailsOnly Failure.OfArguments := by
  unfold fillChar
  split
  · exact Except.failsOnly_ok
  · split
    · exact Except.failsOnly_ok
    · exact Except.failsOnly_error trivial

theorem padding_failsOnly {text width : Value} {fill : Option Value} :
    (padding function text width fill).FailsOnly Failure.OfArguments :=
  requireCount_failsOnly.bind fun _ _ => fillChar_failsOnly.bind fun _ _ =>
    requireLength_failsOnly.bind fun _ _ => Except.failsOnly_ok

theorem pad_failsOnly {name side : String} {examples : List String}
    {place : String → String → String} :
    ((pad name side examples place).apply args).FailsOnly Failure.OfArguments := by
  unfold pad applyPad
  dsimp only
  split
  · exact padding_failsOnly.bind fun _ _ => Except.failsOnly_ok
  · exact padding_failsOnly.bind fun _ _ => Except.failsOnly_ok
  · exact Except.failsOnly_error trivial

/-- No library function fails but for its arguments. -/
theorem standard_failsOnly : standard.FailsOnly Failure.OfArguments := by
  intro f hf args
  have hmem := (Registry.holds_foldl_add hf).resolve_right Registry.not_holds_empty
  rcases List.mem_append.1 hmem with hmem | hmem
  · simp only [textFunctions, List.mem_cons, List.not_mem_nil, or_false] at hmem
    rcases hmem with rfl | rfl | rfl | rfl | rfl | rfl | rfl | rfl | rfl | rfl | rfl
    · exact onText_failsOnly
    · exact onText_failsOnly
    · exact onText_failsOnly
    · exact onText_failsOnly
    · exact applyReplace_failsOnly
    · exact applyRepeat_failsOnly
    · exact onText_failsOnly
    · exact Except.failsOnly_ok
    · exact applyJoin_failsOnly
    · exact pad_failsOnly
    · exact pad_failsOnly
  · simp only [mathFunctions, List.mem_cons, List.not_mem_nil, or_false] at hmem
    rcases hmem with rfl | rfl | rfl | rfl | rfl | rfl | rfl
    · exact applyAbs_failsOnly
    · exact applyExtremum_failsOnly
    · exact applyExtremum_failsOnly
    · exact applyPow_failsOnly
    · exact applyRounding_failsOnly
    · exact applyRounding_failsOnly
    · exact applyRounding_failsOnly

end Library

end Variorum
