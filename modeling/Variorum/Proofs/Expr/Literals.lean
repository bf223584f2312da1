import Variorum.Proofs.Decimal.Integer
import Variorum.Proofs.Except
import Variorum.Proofs.Expr.Source

/-!
# Literals and their values

The leaf that the reader makes of a number is the one that the number means: its value, or the error
of a number that is out of range.
-/

namespace Variorum

namespace Decimal

variable {ds : List Char}

/-- Digits are passed over only if the number is out of range with them and without them. -/
theorem boundedValue_cases (bound : Nat) (ds : List Char) :
    boundedValue bound ds = digitsValue ds ∨ bound ≤ boundedValue bound ds ∧ bound ≤ digitsValue ds := by
  by_cases h : digitsValue ds < bound
  · exact .inl (boundedValue_of_lt h)
  · exact .inr ⟨le_boundedValue (Nat.le_of_not_lt h), Nat.le_of_not_lt h⟩

theorem ofInt?_of_wordCount_le {n : Nat} (h : Integer.wordCount ≤ n) :
    Integer.ofInt? n = none ∧ Integer.ofInt? (-(n : Int)) = none := by
  simp only [Integer.wordCount] at h
  refine ⟨if_neg ?_, if_neg ?_⟩
  · rintro ⟨-, hhigh⟩
    omega
  · rintro ⟨hlow, -⟩
    omega

theorem ofInt?_boundedValue (ds : List Char) :
    Integer.ofInt? (boundedValue Integer.wordCount ds) = Integer.ofInt? (digitsValue ds) ∧
      Integer.ofInt? (-(boundedValue Integer.wordCount ds : Int)) =
        Integer.ofInt? (-(digitsValue ds : Int)) := by
  rcases boundedValue_cases Integer.wordCount ds with h | ⟨hbounded, hdigits⟩
  · rw [h]
    exact ⟨rfl, rfl⟩
  · obtain ⟨hpos, hneg⟩ := ofInt?_of_wordCount_le hbounded
    obtain ⟨hpos', hneg'⟩ := ofInt?_of_wordCount_le hdigits
    exact ⟨hpos.trans hpos'.symm, hneg.trans hneg'.symm⟩

theorem signedValue_digits (h : IsDigits ds) : signedValue ds = digitsValue ds := by
  unfold signedValue
  split
  · simp [IsDigits, isDigits] at h
  · rfl

/-- The integer that is read from digits is the one that they write, if that is in range. -/
theorem readInteger?_signed (h : IsSigned ds) :
    readInteger? ds = Integer.ofInt? (signedValue ds) := by
  rcases h with h | ⟨es, rfl, h⟩
  · have hread : readInt? Integer.wordCount ds = some ↑(boundedValue Integer.wordCount ds) := by
      simp only [readInt?, splitSign_digits h, readNat?, if_pos (show isDigits ds = true from h)]
      rfl
    rw [readInteger?, hread, Option.bind_some, (ofInt?_boundedValue ds).1, signedValue_digits h]
  · have hread : readInt? Integer.wordCount ('-' :: es) =
        some (-↑(boundedValue Integer.wordCount es)) := by
      simp only [readInt?, splitSign, readNat?, if_pos (show isDigits es = true from h)]
      rfl
    rw [readInteger?, hread, Option.bind_some, (ofInt?_boundedValue es).2]
    rfl

theorem readInteger?_eq_some_iff (h : IsSigned ds) {i : Int64} :
    readInteger? ds = some i ↔ i.toInt = signedValue ds := by
  rw [readInteger?_signed h]
  refine ⟨Integer.toInt_ofInt?_eq, fun hi => ?_⟩
  rw [← hi]
  exact Integer.ofInt?_toInt i

theorem readInteger?_eq_none_iff (h : IsSigned ds) :
    readInteger? ds = none ↔ ¬Integer.InRange (signedValue ds) := by
  rw [readInteger?_signed h, Integer.ofInt?_eq_none]

end Decimal

namespace Expr

variable {e : Expr} {start : Position} {ds : List Char}

theorem ofInteger_inRange {i : Int64} (h : Decimal.readInteger? ds = some i) :
    ofInteger start ds = .literal start.line (.integer i) := by
  rw [ofInteger, h]

theorem ofInteger_outOfRange (h : Decimal.readInteger? ds = none) :
    ofInteger start ds = .invalid (Literal.error ⟨.integer, start, ds⟩) := by
  rw [ofInteger, h]
  rfl

theorem means_integer_iff (h : IsDigits ds) :
    Literal.Means ⟨.integer, start, ds⟩ e ↔ e = ofInteger start ds := by
  have hsigned : IsSigned ds := .inl h
  constructor
  · rintro (⟨-, hi⟩ | ⟨⟨⟩⟩ | hout)
    · exact (ofInteger_inRange ((Decimal.readInteger?_eq_some_iff hsigned).2 hi)).symm
    · exact (ofInteger_outOfRange ((Decimal.readInteger?_eq_none_iff hsigned).2 hout)).symm
  · rintro rfl
    cases hread : Decimal.readInteger? ds with
    | some i =>
        rw [ofInteger_inRange hread]
        exact .integer rfl ((Decimal.readInteger?_eq_some_iff hsigned).1 hread)
    | none =>
        rw [ofInteger_outOfRange hread]
        exact .outOfRange ((Decimal.readInteger?_eq_none_iff hsigned).1 hread)

theorem ofFloat_inRange {numeral : List Char} {x : Float} (h : Decimal.readFloat? numeral = some x)
    (hx : x.isFinite = true) : ofFloat start numeral = .literal start.line (.float x) := by
  simp only [ofFloat, h, if_pos hx]

theorem ofFloat_outOfRange {numeral : List Char} (h : ¬Literal.InRange ⟨.float, start, numeral⟩) :
    ofFloat start numeral = .invalid (Literal.error ⟨.float, start, numeral⟩) := by
  unfold ofFloat
  split
  · rename_i x hread
    have hx : ¬x.isFinite = true := fun hx => h (by simp [Literal.InRange, hread, hx])
    rw [if_neg hx]
    rfl
  · rfl

theorem means_float_iff {numeral : List Char} :
    Literal.Means ⟨.float, start, numeral⟩ e ↔ e = ofFloat start numeral := by
  constructor
  · rintro (⟨⟨⟩⟩ | ⟨-, hread, hfinite⟩ | hout)
    · exact (ofFloat_inRange hread hfinite).symm
    · exact (ofFloat_outOfRange hout).symm
  · rintro rfl
    by_cases h : Literal.InRange ⟨.float, start, numeral⟩
    · obtain ⟨x, hread, hfinite⟩ := Option.any_eq_true _ _ |>.1 h
      rw [ofFloat_inRange hread hfinite]
      exact .float rfl hread hfinite
    · rw [ofFloat_outOfRange h]
      exact .outOfRange h

/-! ## Slices -/

/-- The bound as a number of the source. -/
def Bound.literal (b : Bound) : Literal :=
  ⟨.bound, b.start, b.source⟩

/-- Digits stand where a bound does. -/
def IsBound (b : Option Bound) : Prop :=
  ∀ b' ∈ b, IsSigned b'.source

theorem isBound_none : IsBound none := by
  rintro _ ⟨⟩

theorem boundMeans_iff {b : Option Bound} (h : IsBound b) {i : Option Int64} :
    BoundMeans (b.map Bound.literal) i ↔ Bound.value? b = .ok i := by
  cases b with
  | none =>
      constructor
      · rintro ⟨⟩
        rfl
      · rintro ⟨⟩
        exact .absent
  | some b =>
      have hsigned := h b rfl
      unfold Bound.value?
      dsimp only
      cases hread : Decimal.readInteger? b.source with
      | none =>
          constructor
          · rintro ⟨⟩
            rename_i j hj
            rw [(Decimal.readInteger?_eq_some_iff hsigned).2 hj] at hread
            cases hread
          · rintro ⟨⟩
      | some j =>
          have hj := (Decimal.readInteger?_eq_some_iff hsigned).1 hread
          constructor
          · rintro ⟨⟩
            rename_i k hk
            rw [Int64.toInt_inj.1 (hj.trans hk.symm)]
          · rintro ⟨⟩
            exact .present hj

theorem find?_bound {b : Option Bound} (h : IsBound b) :
    (b.map Bound.literal).toList.find? (¬·.InRange) = (Bound.value? b).error?.map Bound.literal := by
  cases b with
  | none => rfl
  | some b =>
      have hnone := Decimal.readInteger?_eq_none_iff (h b rfl)
      rw [Option.map_some, Option.toList_some, List.find?_singleton, Bound.value?]
      by_cases hrange : b.literal.InRange
      · obtain ⟨j, hread⟩ := Option.ne_none_iff_exists'.1 fun hn => hnone.1 hn hrange
        rw [if_neg (by simpa using hrange), hread]
        rfl
      · rw [if_pos (by simpa using hrange), hnone.2 hrange]
        rfl

variable {line : Nat} {parameter : String} {first last step : Option Bound}

theorem ofBounds_ok {i j k : Option Int64} (hfirst : Bound.value? first = .ok i)
    (hlast : Bound.value? last = .ok j) (hstep : Bound.value? step = .ok k) :
    ofBounds line parameter first last step = .slice line ⟨parameter, i, j, k.getD 1⟩ := by
  rw [ofBounds, hfirst, hlast, hstep]
  rfl

theorem ofBounds_error {b : Bound} (h : ((Bound.value? first).error?.or
      ((Bound.value? last).error?.or (Bound.value? step).error?)) = some b) :
    ofBounds line parameter first last step = .invalid b.literal.error := by
  unfold ofBounds
  cases hfirst : Bound.value? first with
  | error b' =>
      rw [hfirst] at h
      cases h
      rfl
  | ok i =>
      cases hlast : Bound.value? last with
      | error b' =>
          rw [hfirst, hlast] at h
          cases h
          rfl
      | ok j =>
          cases hstep : Bound.value? step with
          | error b' =>
              rw [hfirst, hlast, hstep] at h
              cases h
              rfl
          | ok k =>
              rw [hfirst, hlast, hstep] at h
              cases h

theorem sliceMeans_iff (hfirst : IsBound first) (hlast : IsBound last) (hstep : IsBound step) :
    SliceMeans line parameter (first.map Bound.literal) (last.map Bound.literal)
      (step.map Bound.literal) e ↔ e = ofBounds line parameter first last step := by
  have hfind : ((first.map Bound.literal).toList ++ (last.map Bound.literal).toList ++
      (step.map Bound.literal).toList).find? (¬·.InRange) =
      ((Bound.value? first).error?.or
        ((Bound.value? last).error?.or (Bound.value? step).error?)).map Bound.literal := by
    rw [List.find?_append, List.find?_append, find?_bound hfirst, find?_bound hlast,
      find?_bound hstep, Option.or_assoc, Option.map_or, Option.map_or]
  constructor
  · rintro (⟨hi, hj, hk⟩ | hout)
    · exact (ofBounds_ok ((boundMeans_iff hfirst).1 hi) ((boundMeans_iff hlast).1 hj)
        ((boundMeans_iff hstep).1 hk)).symm
    · rw [hfind, Option.map_eq_some_iff] at hout
      obtain ⟨b, hb, rfl⟩ := hout
      exact (ofBounds_error hb).symm
  · rintro rfl
    cases herror : (Bound.value? first).error?.or
        ((Bound.value? last).error?.or (Bound.value? step).error?) with
    | some b =>
        rw [ofBounds_error herror]
        exact .outOfRange (by rw [hfind, herror]; rfl)
    | none =>
        rw [Option.or_eq_none_iff, Option.or_eq_none_iff] at herror
        obtain ⟨i, hi⟩ := Except.error?_eq_none_iff.1 herror.1
        obtain ⟨j, hj⟩ := Except.error?_eq_none_iff.1 herror.2.1
        obtain ⟨k, hk⟩ := Except.error?_eq_none_iff.1 herror.2.2
        rw [ofBounds_ok hi hj hk]
        exact .inRange ((boundMeans_iff hfirst).2 hi) ((boundMeans_iff hlast).2 hj)
          ((boundMeans_iff hstep).2 hk)

end Expr

end Variorum
