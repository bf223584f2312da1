/-!
# Computations that can fail

When a composed computation succeeds, so does each of its parts; when it fails, one of them does.
-/

namespace Except

variable {ε α β : Type}

@[simp] theorem ok_bind (a : α) (f : α → Except ε β) : (Except.ok a >>= f) = f a := rfl

@[simp] theorem error_bind (e : ε) (f : α → Except ε β) :
    ((Except.error e : Except ε α) >>= f) = Except.error e := rfl

/-- Why a computation failed. -/
def error? : Except ε α → Option ε
  | .error e => some e
  | .ok _ => none

theorem error?_eq_some {x : Except ε α} {e : ε} : x.error? = some e ↔ x = .error e := by
  cases x with
  | error e' => simp [error?]
  | ok a => simp [error?]

theorem error?_eq_none_iff {x : Except ε α} : x.error? = none ↔ ∃ a, x = .ok a := by
  cases x with
  | error e => simp [error?]
  | ok a => simp [error?]

theorem toOption_eq_some {x : Except ε α} {a : α} : x.toOption = some a ↔ x = .ok a := by
  cases x with
  | error e => simp [Except.toOption]
  | ok a => simp [Except.toOption]

/-- A composed computation fails as its first part does, else as its second. -/
theorem error?_bind {x : Except ε α} {f : α → Except ε β} {e? : Option ε}
    (h : ∀ a, x = .ok a → (f a).error? = e?) : (x >>= f).error? = x.error?.or e? := by
  cases x with
  | error e => rfl
  | ok a => exact h a rfl

theorem error?_bind_ok {x : Except ε α} {f : α → β} :
    (x >>= fun a => .ok (f a)).error? = x.error? := by
  cases x with
  | error e => rfl
  | ok a => rfl

theorem error?_mapM {f : α → Except ε β} {as : List α} :
    (as.mapM f).error? = as.findSome? fun a => (f a).error? := by
  induction as with
  | nil => rfl
  | cons a as ih =>
      have hrest : ∀ b, (as.mapM f >>= fun bs => pure (b :: bs)).error? = (as.mapM f).error? :=
        fun _ => error?_bind_ok
      rw [List.mapM_cons, error?_bind fun b _ => hrest b, ih, List.findSome?_cons]
      cases (f a).error? <;> rfl

theorem bind_eq_ok {x : Except ε α} {f : α → Except ε β} {b : β} :
    (x >>= f) = .ok b ↔ ∃ a, x = .ok a ∧ f a = .ok b := by
  cases x with
  | error e => simp
  | ok a => simp

theorem map_eq_ok {x : Except ε α} {f : α → β} {b : β} :
    x.map f = .ok b ↔ ∃ a, x = .ok a ∧ f a = b := by
  cases x with
  | error e => simp [Except.map]
  | ok a => simp [Except.map]

theorem map_eq_error {x : Except ε α} {f : α → β} {e : ε} : x.map f = .error e ↔ x = .error e := by
  cases x with
  | error e' => simp [Except.map]
  | ok a => simp [Except.map]

/-- What each step of a fold keeps, the whole fold keeps. -/
theorem foldlM_invariant {P : β → Prop} {f : β → α → Except ε β}
    (hstep : ∀ b a b', P b → f b a = .ok b' → P b') {as : List α} {b b' : β} (h : P b)
    (he : as.foldlM f b = .ok b') : P b' := by
  induction as generalizing b with
  | nil =>
      cases he
      exact h
  | cons a as ih =>
      rw [List.foldlM_cons] at he
      obtain ⟨c, hc, he⟩ := bind_eq_ok.1 he
      exact ih (hstep b a c h hc) he

theorem mapM_congr {f g : α → Except ε β} {as : List α} (h : ∀ a ∈ as, f a = g a) :
    as.mapM f = as.mapM g := by
  induction as with
  | nil => rfl
  | cons a as ih =>
      rw [List.mapM_cons, List.mapM_cons, h a (by simp), ih fun b hb => h b (by simp [hb])]

/-- A list of computations succeeds with the results of its members, in order. -/
theorem mapM_eq_ok {f : α → Except ε β} {as : List α} {bs : List β} :
    as.mapM f = .ok bs ↔ as.map f = bs.map .ok := by
  induction as generalizing bs with
  | nil =>
      rw [List.mapM_nil, List.map_nil, eq_comm (a := []), List.map_eq_nil_iff]
      exact ⟨fun h => by cases h; rfl, fun h => h ▸ rfl⟩
  | cons a as ih =>
      rw [List.mapM_cons, List.map_cons]
      constructor
      · intro h
        obtain ⟨b, hb, h⟩ := bind_eq_ok.1 h
        obtain ⟨bs, hbs, h⟩ := bind_eq_ok.1 h
        cases h
        rw [hb, ih.1 hbs, List.map_cons]
      · intro h
        cases bs with
        | nil => cases h
        | cons b bs =>
            obtain ⟨hb, hbs⟩ := List.cons.inj h
            rw [hb, ok_bind, ih.2 hbs]
            rfl

/-- What depends on the members alone is known of the results without computing them. -/
theorem map_eq_of_mapM {γ : Type} {f : α → Except ε β} {g : β → γ} {k : α → γ}
    (hg : ∀ a b, f a = .ok b → g b = k a) {as : List α} {bs : List β} (h : as.mapM f = .ok bs) :
    bs.map g = as.map k := by
  have hmap := mapM_eq_ok.1 h
  clear h
  induction as generalizing bs with
  | nil =>
      cases bs with
      | nil => rfl
      | cons b bs => cases hmap
  | cons a as ih =>
      cases bs with
      | nil => cases hmap
      | cons b bs =>
          obtain ⟨hb, hbs⟩ := List.cons.inj hmap
          rw [List.map_cons, List.map_cons, hg a b hb, ih hbs]

theorem exists_mapM_eq_ok {f : α → Except ε β} {as : List α} :
    (∃ bs, as.mapM f = .ok bs) ↔ ∀ a ∈ as, ∃ b, f a = .ok b := by
  constructor
  · rintro ⟨bs, h⟩ a ha
    have hfa : f a ∈ bs.map .ok := mapM_eq_ok.1 h ▸ List.mem_map_of_mem ha
    obtain ⟨b, _, hb⟩ := List.mem_map.1 hfa
    exact ⟨b, hb.symm⟩
  · intro h
    induction as with
    | nil => exact ⟨[], rfl⟩
    | cons a as ih =>
        obtain ⟨b, hb⟩ := h a (by simp)
        obtain ⟨bs, hbs⟩ := ih fun a ha => h a (by simp [ha])
        exact ⟨b :: bs, by rw [List.mapM_cons, hb, ok_bind, hbs]; rfl⟩

/-! ## What a computation fails with -/

section

variable {ε' : Type} {P : ε → Prop} {x : Except ε α}

/-- Whatever a computation fails with has a property. -/
def FailsOnly (P : ε → Prop) (x : Except ε α) : Prop :=
  ∀ e, x = .error e → P e

theorem failsOnly_ok {a : α} : (ok a : Except ε α).FailsOnly P :=
  fun _ h => nomatch h

theorem failsOnly_error {e : ε} (h : P e) : (error e : Except ε α).FailsOnly P := by
  rintro _ ⟨⟩
  exact h

theorem FailsOnly.mono {Q : ε → Prop} (hx : x.FailsOnly P) (h : ∀ e, P e → Q e) : x.FailsOnly Q :=
  fun e he => h e (hx e he)

theorem FailsOnly.bind {f : α → Except ε β} (hx : x.FailsOnly P)
    (hf : ∀ a, x = .ok a → (f a).FailsOnly P) : (x >>= f).FailsOnly P := by
  cases x with
  | error e => exact failsOnly_error (hx e rfl)
  | ok a => exact hf a rfl

theorem FailsOnly.mapError {f : ε → ε'} {Q : ε' → Prop} (hx : x.FailsOnly fun e => Q (f e)) :
    (x.mapError f).FailsOnly Q := by
  cases x with
  | error e => exact failsOnly_error (hx e rfl)
  | ok a => exact failsOnly_ok

theorem FailsOnly.of_mapError {f : ε → ε'} {Q : ε' → Prop} (hx : (x.mapError f).FailsOnly Q) :
    x.FailsOnly fun e => Q (f e) := by
  rintro e rfl
  exact hx (f e) rfl

end

end Except
