import Variorum.Decimal.Notation
import Variorum.Proofs.Decimal.Integer
import Variorum.Proofs.Decimal.Shortest

/-!
# Notations are read back

The text of a decimal with a point or an exponent is read as that decimal and never as an integer.
-/

namespace Variorum.Decimal

variable {body ds rest whole fraction : List Char} {d : Decimal} {x : Float} {p : ℤ}

/-! ## Written decimals -/

/-- The texts of a decimal that have a point or an exponent. -/
inductive Writes : List Char → Decimal → Prop
  | point {whole fraction : List Char} (hwhole : isDigits whole = true)
      (hfraction : isDigits fraction = true) :
      Writes (whole ++ '.' :: fraction) ⟨digitsValue (whole ++ fraction), -fraction.length⟩
  | power {whole : List Char} {p : ℤ} (hwhole : isDigits whole = true) (hpower : p.natAbs < exponentBound) :
      Writes (whole ++ 'e' :: (toString p).toList) ⟨digitsValue whole, p⟩
  | both {whole fraction : List Char} {p : ℤ} (hwhole : isDigits whole = true)
      (hfraction : isDigits fraction = true) (hpower : p.natAbs < exponentBound) :
      Writes (whole ++ '.' :: (fraction ++ 'e' :: (toString p).toList))
        ⟨digitsValue (whole ++ fraction), p - fraction.length⟩

theorem readExponent?_toString (h : p.natAbs < exponentBound) :
    readExponent? ('e' :: (toString p).toList) = some p := by
  rw [readExponent?, if_pos (.inl rfl), readInt?_toString h]

theorem readDigits?_power {text : List Char} (hwhole : isDigits whole = true)
    (hvalue : digitsValue whole < 10 ^ decisiveDigits) :
    readDigits? (whole ++ 'e' :: text) =
      (readExponent? ('e' :: text)).map (nearestFloat (digitsValue whole)) := by
  have hdigits := forall_digit hwhole
  have hletter : ∀ c ∈ ('e' :: text).head?, c.isDigit = false := by
    rintro c ⟨⟩
    rfl
  have htake := Text.takeWhile_run hdigits hletter
  have hdrop := Text.dropWhile_run hdigits hletter
  have hsome := isEmpty_of_isDigits hwhole
  rw [readDigits?, htake, hdrop]
  simp [hsome, significand_eq hdigits hvalue]

theorem readDigits?_point (hwhole : isDigits whole = true) (hfraction : isDigits fraction = true)
    (hrest : ∀ c ∈ rest.head?, c.isDigit = false)
    (hvalue : digitsValue (whole ++ fraction) < 10 ^ decisiveDigits) :
    readDigits? (whole ++ '.' :: (fraction ++ rest)) =
      (readExponent? rest).map fun e =>
        nearestFloat (digitsValue (whole ++ fraction)) (e - fraction.length) := by
  have hdigits := forall_digit hwhole
  have hdigits' := forall_digit hfraction
  have hpoint : ∀ c ∈ ('.' :: (fraction ++ rest)).head?, c.isDigit = false := by
    rintro c ⟨⟩
    rfl
  have htake := Text.takeWhile_run hdigits hpoint
  have hdrop := Text.dropWhile_run hdigits hpoint
  have htake' := Text.takeWhile_run hdigits' hrest
  have hdrop' := Text.dropWhile_run hdigits' hrest
  have hsome := isEmpty_of_isDigits hwhole
  simp only [readDigits?, htake, hdrop, htake', hdrop', hsome, Bool.false_and, Bool.false_eq_true, if_false,
    significand_eq (List.forall_mem_append.2 ⟨hdigits, hdigits'⟩) hvalue, Nat.cast_zero, add_zero]

/-- A written decimal is read as the float nearest to it. -/
theorem Writes.readDigits? (h : Writes body d) (hd : d.digits < 10 ^ decisiveDigits) :
    Decimal.readDigits? body = some (nearestFloat d.digits d.exponent) := by
  cases h with
  | @point whole fraction hwhole hfraction =>
    have hread := @readDigits?_point [] _ _ hwhole hfraction (by rintro c ⟨⟩) hd
    rw [List.append_nil] at hread
    rw [hread, readExponent?, Option.map_some, zero_sub]
  | power hwhole hpower =>
    rw [readDigits?_power hwhole hd, readExponent?_toString hpower]
    rfl
  | both hwhole hfraction hpower =>
    rw [readDigits?_point hwhole hfraction (by rintro c ⟨⟩; rfl) hd, readExponent?_toString hpower]
    rfl

/-! ## The texts of a float -/

theorem Denotes.digits_lt (h : Denotes d x) : d.digits < 10 ^ decisiveDigits := by
  have hlength := h.length_le
  have hexponent := h.exponent_ge
  calc d.digits
    _ < 10 ^ (Nat.toDigits 10 d.digits).length := lt_ten_pow_length _
    _ ≤ 10 ^ decisiveDigits := Nat.pow_le_pow_right (by decide) (by simp only [decisiveDigits]; omega)

/-- A point stands before any of the digits but the first. -/
theorem writes_split {places : ℕ} (hds : isDigits ds = true) (hpos : 0 < places)
    (hlt : places < ds.length) :
    Writes (ds.take (ds.length - places) ++ '.' :: ds.drop (ds.length - places))
      ⟨digitsValue ds, -places⟩ := by
  have hfraction : (ds.drop (ds.length - places)).length = places := by
    rw [List.length_drop]
    omega
  have hwhole : (ds.take (ds.length - places)).length = ds.length - places := by
    rw [List.length_take]
    omega
  have hsplit := Writes.point
    (isDigits_of_forall (List.ne_nil_of_length_pos (hwhole ▸ Nat.sub_pos_of_lt hlt))
      fun c hc => forall_digit hds c (List.mem_of_mem_take hc))
    (isDigits_of_forall (List.ne_nil_of_length_pos (hfraction ▸ hpos))
      fun c hc => forall_digit hds c (List.mem_of_mem_drop hc))
  rwa [List.take_append_drop, hfraction] at hsplit

theorem writes_positional (h : d.exponent < 0) : Writes (positional d) d := by
  obtain ⟨n, e⟩ := d
  have hneg : e < 0 := h
  obtain ⟨places, rfl⟩ : ∃ places : ℕ, e = -places := ⟨(-e).toNat, by omega⟩
  rw [positional, if_neg (not_le.2 h)]
  simp only [neg_neg, Int.toNat_natCast]
  obtain ⟨padded, hpadded⟩ : ∃ padded,
    padded = List.replicate (places + 1 - (digitChars n).length) '0' ++ digitChars n := ⟨_, rfl⟩
  have hdigits : isDigits padded = true := hpadded ▸ isDigits_replicate (isDigits_toDigits n) _
  have hlength : places < padded.length := by
    rw [hpadded, List.length_append, List.length_replicate]
    omega
  have hvalue : digitsValue padded = n := by
    rw [hpadded, digitsValue_replicate]
    exact digitsValue_toDigits n
  have hwrites := writes_split hdigits (by omega) hlength
  rwa [hvalue, hpadded] at hwrites

theorem writes_scientific (h : Denotes d x) : Writes (scientific d) d := by
  obtain ⟨n, e⟩ := d
  have hlength : (digitChars n).length + e ≤ 312 := h.length_le
  have hexponent : -346 ≤ e := h.exponent_ge
  have hdigits : isDigits (digitChars n) = true := isDigits_toDigits n
  have hvalue : digitsValue (digitChars n) = n := digitsValue_toDigits n
  rw [scientific]
  cases hchars : digitChars n with
  | nil => exact absurd hchars Nat.toDigits_ne_nil
  | cons c cs =>
    rw [hchars] at hdigits hvalue hlength
    rw [List.length_cons, Nat.cast_succ] at hlength
    have hpower : (e + cs.length).natAbs < exponentBound := by
      simp only [exponentBound]
      omega
    obtain ⟨hc, hcs⟩ := List.forall_mem_cons.1 (forall_digit hdigits)
    cases cs with
    | nil =>
      have hwrites := Writes.power hdigits hpower
      rw [hvalue] at hwrites
      simpa using hwrites
    | cons c' cs =>
      have hwhole := isDigits_of_forall (List.cons_ne_nil c []) (List.forall_mem_singleton.2 hc)
      have hfraction := isDigits_of_forall (List.cons_ne_nil c' cs) hcs
      have hwrites := Writes.both hwhole hfraction hpower
      rwa [List.singleton_append, List.singleton_append, hvalue, add_sub_cancel_right] at hwrites

theorem writes_whole (n : ℕ) : Writes (digitChars n ++ ['.', '0']) ⟨10 * n, -1⟩ := by
  have hwrites := Writes.point (isDigits_toDigits n) (show isDigits ['0'] = true from rfl)
  rwa [digitsValue_append_zero, digitsValue_toDigits] at hwrites

/-! ## Signs -/

/-- What is written begins with a digit. -/
theorem Writes.head (h : Writes body d) : ∃ c cs, body = c :: cs ∧ c.isDigit = true := by
  cases h with
  | point hwhole | power hwhole | both hwhole =>
    obtain ⟨c, cs, rfl, hc, -⟩ := isDigits_iff.1 hwhole
    exact ⟨c, _, rfl, hc⟩

/-- What is written has a character that no integer has. -/
theorem Writes.not_isDigits (h : Writes body d) : isDigits body = false := by
  cases h <;> simp [isDigits, List.all_append]

theorem Writes.splitSign (h : Writes body d) : Decimal.splitSign body = (false, body) := by
  obtain ⟨c, cs, rfl, hc⟩ := h.head
  unfold Decimal.splitSign
  split
  next heq =>
    cases heq
    exact absurd hc (by decide)
  next heq =>
    cases heq
    exact absurd hc (by decide)
  next => rfl

/-- The names of the floats without digits begin with a letter. -/
theorem Writes.readMagnitude? (h : Writes body d) :
    Decimal.readMagnitude? body = Decimal.readDigits? body := by
  obtain ⟨c, cs, rfl, hc⟩ := h.head
  have hletter : ∀ a as, a.isAlpha = true →
      String.ofList ((c :: cs).map Char.toLower) ≠ String.ofList (a :: as) := by
    intro a as ha heq
    have hhead : c.toLower = a := (List.cons.inj (String.ofList_injective heq)).1
    rw [← hhead, Char.isAlpha_toLower_eq_isAlpha, isAlpha_of_isDigit hc] at ha
    cases ha
  unfold Decimal.readMagnitude?
  rw [if_neg, if_neg]
  · exact hletter 'n' ['a', 'n'] rfl
  · exact not_or.2 ⟨hletter 'i' ['n', 'f'] rfl, hletter 'i' ['n', 'f', 'i', 'n', 'i', 't', 'y'] rfl⟩

theorem Writes.readMagnitude?_eq (h : Writes body d) (hdenotes : Denotes d x) :
    Decimal.readMagnitude? body = some x.abs := by
  rw [h.readMagnitude?, h.readDigits? hdenotes.digits_lt, hdenotes.nearest]

theorem Writes.readFloat? (h : Writes body d) (hdenotes : Denotes d x) :
    Decimal.readFloat? body = some x.abs := by
  simp only [Decimal.readFloat?, h.splitSign, h.readMagnitude?_eq hdenotes]
  rfl

theorem toList_ofMagnitude (h : x.isFinite = true) (body : List Char) :
    (ofMagnitude x body).toList = if Binary64.isNegative x then '-' :: body else body := by
  rw [ofMagnitude, Binary64.isNaN_eq_false h, h]
  exact String.toList_ofList

theorem readFloat?_ofMagnitude (h : x.isFinite = true) (hwrites : Writes body d) (hdenotes : Denotes d x) :
    readFloat? (ofMagnitude x body).toList = some x := by
  have hsigned := Binary64.signed_abs h
  rw [toList_ofMagnitude h]
  cases hnegative : Binary64.isNegative x with
  | false =>
    rw [hnegative] at hsigned
    exact (hwrites.readFloat? hdenotes).trans (congrArg some hsigned)
  | true =>
    rw [hnegative] at hsigned
    simp only [if_true, readFloat?, splitSign, hwrites.readMagnitude?_eq hdenotes]
    exact congrArg some hsigned

theorem readInteger?_ofMagnitude (h : x.isFinite = true) (hwrites : Writes body d) :
    readInteger? (ofMagnitude x body).toList = none := by
  have hnone : readNat? Integer.wordCount body = none := by
    rw [readNat?, hwrites.not_isDigits]
    rfl
  rw [toList_ofMagnitude h, readInteger?, readInt?]
  cases Binary64.isNegative x with
  | false => simp [hwrites.splitSign, hnone]
  | true => simp [splitSign, hnone]

/-- The marked text of a finite float writes a decimal that denotes it. -/
theorem marked_eq (h : x.isFinite = true) :
    ∃ body d, marked x = ofMagnitude x body ∧ Writes body d ∧ Denotes d x := by
  have hshortest := denotes_shortest h
  unfold marked
  split
  · exact ⟨_, _, rfl, writes_scientific hshortest, hshortest⟩
  cases hwhole : Binary64.isWhole x with
  | true => exact ⟨_, _, rfl, writes_whole _, denotes_whole hwhole⟩
  | false => exact ⟨_, _, rfl, writes_positional (shortest_exponent_neg h hwhole), hshortest⟩

/-- Every finite float is read back from its marked text. -/
theorem readFloat?_marked (h : x.isFinite = true) : readFloat? (marked x).toList = some x := by
  obtain ⟨body, d, hmarked, hwrites, hdenotes⟩ := marked_eq h
  rw [hmarked, readFloat?_ofMagnitude h hwrites hdenotes]

/-- The marked text of a float is no integer. -/
theorem readInteger?_marked (h : x.isFinite = true) : readInteger? (marked x).toList = none := by
  obtain ⟨body, d, hmarked, hwrites, -⟩ := marked_eq h
  rw [hmarked, readInteger?_ofMagnitude h hwrites]

end Variorum.Decimal
