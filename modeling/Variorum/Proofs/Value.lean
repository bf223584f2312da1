import Variorum.Value

/-!
# Equality of values

Values are compared as texts and numbers: the comparison is symmetric and transitive, and only a float
that is not a number differs from itself.
-/

open Float.Model (UnpackedFloat)

namespace Variorum.Value

variable {x y : UnpackedFloat} {s s' : UnpackedFloat.Sign}

/-- Which number a float is, if it is one. Both zeros are the same. -/
def number? : UnpackedFloat → Option UnpackedFloat
  | .notANumber => none
  | .zero _ => some (.zero .positive)
  | x => some x

theorem beq_infinity : (UnpackedFloat.infinity s).beq (.infinity s') = true ↔ s' = s := by
  cases s with
  | negative =>
      cases s' with
      | negative => exact iff_of_true rfl rfl
      | positive => exact iff_of_false Bool.false_ne_true (by rintro ⟨⟩)
  | positive =>
      cases s' with
      | negative => exact iff_of_false Bool.false_ne_true (by rintro ⟨⟩)
      | positive => exact iff_of_true rfl rfl

theorem beq_zero : (UnpackedFloat.zero s).beq (.zero s') = true := by
  cases s <;> cases s' <;> rfl

theorem beq_finite {m m' : Nat} {e e' : Int} {h : 0 < m} {h' : 0 < m'} :
    (UnpackedFloat.finite s m e h).beq (.finite s' m' e' h') = true ↔ s' = s ∧ m' = m ∧ e' = e := by
  have hthen : (compare e e').then (compare m m') = .eq ↔ m' = m ∧ e' = e := by
    rw [Ordering.then_eq_eq, Int.compare_eq_eq, Nat.compare_eq_eq]
    omega
  cases s with
  | negative =>
      cases s' with
      | negative =>
          change (some ((compare e e').then (compare m m')).swap == some Ordering.eq) = true ↔ _
          simp [hthen]
      | positive => exact iff_of_false Bool.false_ne_true (by rintro ⟨⟨⟩, -⟩)
  | positive =>
      cases s' with
      | negative => exact iff_of_false Bool.false_ne_true (by rintro ⟨⟨⟩, -⟩)
      | positive =>
          change (some ((compare e e').then (compare m m')) == some Ordering.eq) = true ↔ _
          simp [hthen]

/-- Floats are equal if they are of one number. -/
theorem beq_iff_number? : x.beq y = true ↔ ∃ n, number? x = some n ∧ number? y = some n := by
  cases x with
  | notANumber => exact iff_of_false Bool.false_ne_true (by rintro ⟨_, ⟨⟩, -⟩)
  | infinity s =>
      cases y with
      | infinity s' =>
          refine beq_infinity.trans ⟨?_, ?_⟩
          · rintro rfl
            exact ⟨_, rfl, rfl⟩
          · rintro ⟨_, ⟨⟩, ⟨⟩⟩
            rfl
      | _ => cases s <;> exact iff_of_false Bool.false_ne_true (by rintro ⟨_, ⟨⟩, ⟨⟩⟩)
  | zero s =>
      cases y with
      | notANumber => exact iff_of_false Bool.false_ne_true (by rintro ⟨_, -, ⟨⟩⟩)
      | zero s' => exact iff_of_true beq_zero ⟨_, rfl, rfl⟩
      | infinity s' => cases s' <;> exact iff_of_false Bool.false_ne_true (by rintro ⟨_, ⟨⟩, ⟨⟩⟩)
      | finite s' => cases s' <;> exact iff_of_false Bool.false_ne_true (by rintro ⟨_, ⟨⟩, ⟨⟩⟩)
  | finite s m e h =>
      cases y with
      | notANumber => exact iff_of_false Bool.false_ne_true (by rintro ⟨_, -, ⟨⟩⟩)
      | zero s' => cases s <;> exact iff_of_false Bool.false_ne_true (by rintro ⟨_, ⟨⟩, ⟨⟩⟩)
      | infinity s' => cases s' <;> exact iff_of_false Bool.false_ne_true (by rintro ⟨_, ⟨⟩, ⟨⟩⟩)
      | finite s' m' e' h' =>
          refine beq_finite.trans ⟨?_, ?_⟩
          · rintro ⟨rfl, rfl, rfl⟩
            exact ⟨_, rfl, rfl⟩
          · rintro ⟨_, ⟨⟩, ⟨⟩⟩
            exact ⟨rfl, rfl, rfl⟩

theorem number?_eq_none (h : number? x = none) : x.isNaN = true := by
  cases x with
  | notANumber => rfl
  | _ => cases h

/-! ## Values -/

/-- What a value is compared by, if it is the same as any. -/
def meaning? : Value → Option (String ⊕ Int64 ⊕ UnpackedFloat)
  | .text s => some (.inl s)
  | .integer i => some (.inr (.inl i))
  | .float x => (number? x.toModel.unpack).map fun n => .inr (.inr n)

theorem beq_iff_meaning? {v w : Value} :
    (v == w) = true ↔ ∃ a, v.meaning? = some a ∧ w.meaning? = some a := by
  cases v with
  | text a =>
      cases w with
      | text b =>
          change (a == b) = true ↔ _
          rw [beq_iff_eq, eq_comm]
          simp [meaning?]
      | integer j => simp [meaning?, BEq.beq, instBEqValue.beq]
      | float y => simp [meaning?, BEq.beq, instBEqValue.beq]
  | integer i =>
      cases w with
      | text b => simp [meaning?, BEq.beq, instBEqValue.beq]
      | integer j =>
          change (i == j) = true ↔ _
          rw [beq_iff_eq, eq_comm]
          simp [meaning?]
      | float y => simp [meaning?, BEq.beq, instBEqValue.beq]
  | float x =>
      cases w with
      | text b => simp [meaning?, BEq.beq, instBEqValue.beq]
      | integer j => simp [meaning?, BEq.beq, instBEqValue.beq]
      | float y =>
          change x.toModel.unpack.beq y.toModel.unpack = true ↔ _
          simp only [beq_iff_number?, meaning?, Option.map_eq_some_iff]
          constructor
          · rintro ⟨n, hx, hy⟩
            exact ⟨_, ⟨n, hx, rfl⟩, n, hy, rfl⟩
          · rintro ⟨_, ⟨n, hx, rfl⟩, _, hy, ⟨⟩⟩
            exact ⟨n, hx, hy⟩

instance : PartialEquivBEq Value where
  symm h := by
    obtain ⟨a, hv, hw⟩ := beq_iff_meaning?.1 h
    exact beq_iff_meaning?.2 ⟨a, hw, hv⟩
  trans h h' := by
    obtain ⟨a, hu, hv⟩ := beq_iff_meaning?.1 h
    obtain ⟨b, hv', hw⟩ := beq_iff_meaning?.1 h'
    cases hv.symm.trans hv'
    exact beq_iff_meaning?.2 ⟨a, hu, hw⟩

/-- Only a float that is not a number differs from itself. -/
theorem beq_self {v : Value} (h : ∀ x, v = .float x → x.isNaN = false) : (v == v) = true := by
  cases hmeaning : v.meaning? with
  | some a => exact beq_iff_meaning?.2 ⟨a, hmeaning, hmeaning⟩
  | none =>
      cases v with
      | text s => cases hmeaning
      | integer i => cases hmeaning
      | float x =>
          have hnan : x.isNaN = true := number?_eq_none (Option.map_eq_none_iff.1 hmeaning)
          rw [h x rfl] at hnan
          cases hnan

end Variorum.Value
