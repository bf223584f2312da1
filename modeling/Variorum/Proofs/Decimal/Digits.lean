import Mathlib.Tactic.Ring
import Variorum.Decimal.Numeral
import Variorum.Proofs.Text.Run

/-!
# Digits

The number that digits write does not depend on the zeros before them, and is below the power of ten that
their count says.
-/

namespace Variorum.Decimal

variable {ds : List Char} {n : Nat}

theorem isDigits_iff : isDigits ds = true ↔
    ∃ c cs, ds = c :: cs ∧ c.isDigit = true ∧ ∀ d ∈ cs, d.isDigit = true := by
  cases ds with
  | nil => simp [isDigits]
  | cons c cs =>
    have hcons : isDigits (c :: cs) = true ↔ c.isDigit = true ∧ ∀ d ∈ cs, d.isDigit = true := by
      simp [isDigits]
    refine hcons.trans ⟨fun h => ⟨c, cs, rfl, h⟩, ?_⟩
    rintro ⟨c', cs', heq, h⟩
    cases heq
    exact h

theorem forall_digit (h : isDigits ds = true) : ∀ c ∈ ds, c.isDigit = true := by
  obtain ⟨c, cs, rfl, hc, hcs⟩ := isDigits_iff.1 h
  exact List.forall_mem_cons.2 ⟨hc, hcs⟩

theorem isEmpty_of_isDigits (h : isDigits ds = true) : ds.isEmpty = false := by
  obtain ⟨c, cs, rfl, -⟩ := isDigits_iff.1 h
  rfl

theorem isDigits_of_forall (hne : ds ≠ []) (h : ∀ c ∈ ds, c.isDigit = true) : isDigits ds = true := by
  obtain ⟨c, cs, rfl⟩ := List.exists_cons_of_ne_nil hne
  exact isDigits_iff.2 ⟨c, cs, rfl, List.forall_mem_cons.1 h⟩

theorem isAlpha_of_isDigit {c : Char} (h : c.isDigit = true) : c.isAlpha = false := by
  have hdigit : c.val.toNat ≤ 57 := (Char.isDigit_iff_toNat.1 h).2
  rw [Bool.eq_false_iff]
  intro halpha
  unfold Char.isAlpha Char.isUpper Char.isLower at halpha
  simp only [Bool.or_eq_true, Bool.and_eq_true, decide_eq_true_eq, ge_iff_le,
    UInt32.le_iff_toNat_le] at halpha
  rcases halpha with ⟨hupper, -⟩ | ⟨hlower, -⟩
  · exact absurd (Nat.le_trans hupper hdigit) (by decide)
  · exact absurd (Nat.le_trans hlower hdigit) (by decide)

/-! ## The digits of a number -/

theorem digitsValue_toDigits (n : Nat) : digitsValue (Nat.toDigits 10 n) = n :=
  Nat.ofDigitChars_ten_toDigits

theorem isDigit_of_mem_toDigits {c : Char} (h : c ∈ Nat.toDigits 10 n) : c.isDigit = true :=
  Nat.isDigit_of_mem_toDigits (by decide) (by decide) h

theorem isDigits_toDigits (n : Nat) : isDigits (Nat.toDigits 10 n) = true :=
  isDigits_of_forall Nat.toDigits_ne_nil fun _ => isDigit_of_mem_toDigits

theorem lt_ten_pow_length (n : Nat) : n < 10 ^ (Nat.toDigits 10 n).length :=
  (Nat.length_toDigits_le_iff (by decide) Nat.length_toDigits_pos).1 (Nat.le_refl _)

theorem ten_pow_length_le (h : 0 < n) : 10 ^ ((Nat.toDigits 10 n).length - 1) ≤ n := by
  rcases Nat.eq_zero_or_pos ((Nat.toDigits 10 n).length - 1) with hone | hmore
  · rw [hone]
    exact h
  · by_contra hlt
    have hle := (Nat.length_toDigits_le_iff (by decide) hmore).2 (Nat.lt_of_not_le hlt)
    omega

/-! ## Zeros -/

theorem digitsValue_replicate (k : Nat) (ds : List Char) :
    digitsValue (List.replicate k '0' ++ ds) = digitsValue ds := by
  induction k with
  | zero => rfl
  | succ k ih => exact ih

theorem boundedValue_replicate {bound : Nat} (hbound : 0 < bound) (k : Nat) (ds : List Char) :
    boundedValue bound (List.replicate k '0' ++ ds) = boundedValue bound ds := by
  induction k with
  | zero => rfl
  | succ k ih =>
    rw [List.replicate_succ, List.cons_append, boundedValue, List.foldl_cons, if_pos hbound]
    exact ih

theorem isDigits_replicate (h : isDigits ds = true) (k : Nat) :
    isDigits (List.replicate k '0' ++ ds) = true := by
  have hzeros : ∀ c ∈ List.replicate k '0', c.isDigit = true := by
    intro c hc
    rw [List.eq_of_mem_replicate hc]
    rfl
  obtain ⟨c, cs, rfl, -⟩ := isDigits_iff.1 h
  exact isDigits_of_forall (List.append_ne_nil_of_right_ne_nil _ (List.cons_ne_nil c cs))
    (List.forall_mem_append.2 ⟨hzeros, forall_digit h⟩)

theorem digitsValue_append_zero (ds : List Char) : digitsValue (ds ++ ['0']) = 10 * digitsValue ds := by
  rw [digitsValue, List.foldl_append]
  rfl

theorem digitsValue_dropWhile (ds : List Char) :
    digitsValue (ds.dropWhile (· == '0')) = digitsValue ds := by
  induction ds with
  | nil => rfl
  | cons c ds ih =>
    by_cases hc : c = '0'
    · rw [hc]
      exact ih
    · rw [List.dropWhile_cons_of_neg (by simpa using hc)]

theorem mul_pow_le_foldl (ds : List Char) (n : Nat) :
    n * 10 ^ ds.length ≤ ds.foldl (fun n d => 10 * n + (d.toNat - '0'.toNat)) n := by
  induction ds generalizing n with
  | nil => simp
  | cons c ds ih =>
    calc n * 10 ^ (ds.length + 1)
      _ = 10 * n * 10 ^ ds.length := by ring
      _ ≤ (10 * n + (c.toNat - '0'.toNat)) * 10 ^ ds.length :=
        Nat.mul_le_mul_right _ (Nat.le_add_right _ _)
      _ ≤ _ := ih _

/-- Digits that do not begin with a zero are as many as their number has. -/
theorem length_dropWhile_le (hds : ∀ c ∈ ds, c.isDigit = true) (h : digitsValue ds < 10 ^ n) :
    (ds.dropWhile (· == '0')).length ≤ n := by
  rw [← digitsValue_dropWhile] at h
  have hfirst := Text.head_dropWhile (· == '0') ds
  have hsuffix := (List.dropWhile_suffix (l := ds) (· == '0')).subset
  generalize ds.dropWhile (· == '0') = counted at *
  cases counted with
  | nil => exact Nat.zero_le _
  | cons c cs =>
    have hdigit := Char.isDigit_iff_toNat.1 (hds c (hsuffix List.mem_cons_self))
    have hnonzero : c ≠ '0' := by simpa using hfirst c rfl
    have hc : c.toNat ≠ '0'.toNat := fun heq => hnonzero (Char.toNat_inj.1 heq)
    have hleading : 1 ≤ 10 * 0 + (c.toNat - '0'.toNat) := by
      have hzero : '0'.toNat = 48 := rfl
      omega
    have hlt : 10 ^ cs.length < 10 ^ n :=
      calc 10 ^ cs.length
        _ = 1 * 10 ^ cs.length := (Nat.one_mul _).symm
        _ ≤ (10 * 0 + (c.toNat - '0'.toNat)) * 10 ^ cs.length := Nat.mul_le_mul_right _ hleading
        _ ≤ digitsValue (c :: cs) := mul_pow_le_foldl cs _
        _ < 10 ^ n := h
    exact (Nat.pow_lt_pow_iff_right (by decide)).1 hlt

/-- Of at most eight hundred digits none is left out. -/
theorem significand_eq (hds : ∀ c ∈ ds, c.isDigit = true) (h : digitsValue ds < 10 ^ decisiveDigits) :
    significand ds = (digitsValue ds, 0) := by
  have hdrop : (ds.dropWhile (· == '0')).drop decisiveDigits = [] :=
    List.drop_eq_nil_of_le (length_dropWhile_le hds h)
  simp only [significand, hdrop, digitsValue_dropWhile]

end Variorum.Decimal
