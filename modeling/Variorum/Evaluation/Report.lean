import Variorum.Diagnostic

/-!
# Reports

A result together with the diagnostics that were recorded on the way to it. A failure keeps those
recorded before it.
-/

namespace Variorum

/-- The diagnostics of a computation and what it came to. -/
structure Report (ε α : Type) where
  log : List Diagnostic := []
  result : Except ε α

namespace Report

def done {ε α : Type} (a : α) : Report ε α :=
  { result := .ok a }

def fail {ε α : Type} (e : ε) : Report ε α :=
  { result := .error e }

def record {ε : Type} (d : Diagnostic) : Report ε Unit :=
  { log := [d], result := .ok () }

def ofExcept {ε α : Type} (r : Except ε α) : Report ε α :=
  { result := r }

/-- Goes on with a result, and records behind what was recorded. -/
def andThen {ε α β : Type} (r : Report ε α) (f : α → Report ε β) : Report ε β :=
  match r.result with
  | .ok a =>
    let next := f a
    { next with log := r.log ++ next.log }
  | .error e => { log := r.log, result := .error e }

instance {ε : Type} : Monad (Report ε) where
  pure := done
  bind := andThen

def mapError {ε ε' α : Type} (f : ε → ε') (r : Report ε α) : Report ε' α :=
  { r with result := r.result.mapError f }

/-! ## Results and logs of composed reports -/

variable {ε ε' α β : Type}

@[simp] theorem result_done (a : α) : (done a : Report ε α).result = .ok a := rfl

@[simp] theorem result_pure (a : α) : (pure a : Report ε α).result = .ok a := rfl

@[simp] theorem result_fail (e : ε) : (fail e : Report ε α).result = .error e := rfl

@[simp] theorem result_record (d : Diagnostic) : (record d : Report ε Unit).result = .ok () := rfl

@[simp] theorem result_ofExcept (r : Except ε α) : (ofExcept r).result = r := rfl

@[simp] theorem result_mapError (f : ε → ε') (r : Report ε α) :
    (r.mapError f).result = r.result.mapError f := rfl

@[simp] theorem result_bind (r : Report ε α) (f : α → Report ε β) :
    (r >>= f).result = r.result >>= fun a => (f a).result := by
  obtain ⟨log, _ | a⟩ := r <;> rfl

@[simp] theorem log_done (a : α) : (done a : Report ε α).log = [] := rfl

@[simp] theorem log_pure (a : α) : (pure a : Report ε α).log = [] := rfl

@[simp] theorem log_fail (e : ε) : (fail e : Report ε α).log = [] := rfl

@[simp] theorem log_record (d : Diagnostic) : (record d : Report ε Unit).log = [d] := rfl

@[simp] theorem log_ofExcept (r : Except ε α) : (ofExcept r).log = [] := rfl

@[simp] theorem log_mapError (f : ε → ε') (r : Report ε α) : (r.mapError f).log = r.log := rfl

@[ext] theorem ext {r s : Report ε α} (hlog : r.log = s.log) (hresult : r.result = s.result) :
    r = s := by
  cases r
  cases s
  cases hlog
  cases hresult
  rfl

theorem log_bind (r : Report ε α) (f : α → Report ε β) :
    (r >>= f).log = r.log ++ (match r.result with | .ok a => (f a).log | .error _ => []) := by
  obtain ⟨log, e | a⟩ := r
  · exact (List.append_nil log).symm
  · rfl

instance : LawfulMonad (Report ε) :=
  LawfulMonad.mk' (Report ε)
    (by
      rintro α ⟨log, e | a⟩
      · rfl
      · exact ext (List.append_nil log) rfl)
    (fun _ _ => rfl)
    (by
      rintro α β γ ⟨log, e | a⟩ f g
      · rfl
      · show andThen (andThen ⟨log, .ok a⟩ f) g = andThen ⟨log, .ok a⟩ fun a => andThen (f a) g
        unfold andThen
        dsimp only
        cases (f a).result with
        | error e => rfl
        | ok b => exact ext (List.append_assoc _ _ _) rfl)

theorem result_mapM {f : α → Report ε β} {as : List α} :
    (as.mapM f).result = as.mapM fun a => (f a).result := by
  induction as with
  | nil => rfl
  | cons a as ih =>
      simp only [List.mapM_cons, result_bind, ih]
      rfl

theorem result_mapM_option {f : α → Report ε β} {o : Option α} :
    (o.mapM f).result = o.mapM fun a => (f a).result := by
  cases o with
  | none => rfl
  | some a => exact result_bind (f a) _

/-- What is recorded behind a failure is nothing. -/
theorem mem_log_bind {r : Report ε α} {f : α → Report ε β} {d : Diagnostic} :
    d ∈ (r >>= f).log ↔ d ∈ r.log ∨ ∃ a, r.result = .ok a ∧ d ∈ (f a).log := by
  obtain ⟨log, e | a⟩ := r
  · show d ∈ log ↔ _
    simp
  · show d ∈ log ++ (f a).log ↔ _
    simp

end Report

end Variorum
