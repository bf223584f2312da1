import Variorum.Library.Text
import Variorum.Proofs.Except

/-!
# Lengths of repeated and padded texts

A repeated text is not longer than a text of the library may be. Of a padded text this is said of the
padding alone, so that it is too long as soon as the text and its padding are too long together.
-/

namespace Variorum

/-! ## Repeated texts -/

namespace Text

@[simp] theorem utf8ByteSize_repeated (s : String) (count : Nat) :
    (repeated s count).utf8ByteSize = s.utf8ByteSize * count := by
  fun_induction repeated s count with
  | case1 => simp
  | case2 count _ half heven ih =>
      rw [String.utf8ByteSize_append, ih, ← Nat.mul_add]
      congr 1
      omega
  | case3 count _ half hodd ih =>
      rw [String.utf8ByteSize_append, String.utf8ByteSize_append, ih, ← Nat.mul_add, ← Nat.mul_succ]
      congr 1
      omega

end Text

namespace Library

variable {function : String} {args : List Value} {v : Value}

theorem requireCount_eq_ok {arg : String} {count : Nat} :
    requireCount function arg v = .ok count ↔
      ∃ i : Int64, v = .integer i ∧ 0 ≤ i.toInt ∧ i.toInt.toNat = count := by
  cases v with
  | text s => exact iff_of_false nofun (by rintro ⟨_, ⟨⟩, -⟩)
  | float x => exact iff_of_false nofun (by rintro ⟨_, ⟨⟩, -⟩)
  | integer i =>
      rw [requireCount, requireInteger, Except.ok_bind]
      split
      · refine iff_of_false nofun ?_
        rintro ⟨_, ⟨⟩, hcount, -⟩
        omega
      · constructor
        · rintro ⟨⟩
          exact ⟨i, rfl, by omega, rfl⟩
        · rintro ⟨_, ⟨⟩, -, rfl⟩
          rfl

theorem requireLength_eq_ok {unit count : Nat} :
    requireLength function unit count = .ok () ↔ unit * count ≤ maxTextBytes := by
  unfold requireLength
  split
  · exact iff_of_true rfl ‹_›
  · exact iff_of_false nofun ‹_›

/-- The arguments ask for a text that is another one several times. -/
inductive AsksToRepeat : List Value → String → Prop
  | copies {text : Value} {count : Int64} (hcount : 0 ≤ count.toInt) :
      AsksToRepeat [text, .integer count] (Text.repeated text.display count.toInt.toNat)

theorem applyRepeat_eq_ok :
    applyRepeat args = .ok v ↔
      ∃ s, AsksToRepeat args s ∧ s.utf8ByteSize ≤ maxTextBytes ∧ v = .text s := by
  unfold applyRepeat
  split
  · rename_i text count
    constructor
    · intro h
      obtain ⟨n, hn, h⟩ := Except.bind_eq_ok.1 h
      obtain ⟨i, rfl, hnat, rfl⟩ := requireCount_eq_ok.1 hn
      obtain ⟨_, hlength, h⟩ := Except.bind_eq_ok.1 h
      cases h
      refine ⟨_, .copies hnat, ?_, rfl⟩
      rw [Text.utf8ByteSize_repeated]
      exact requireLength_eq_ok.1 hlength
    · rintro ⟨_, hasks, hlength, rfl⟩
      cases hasks with
      | copies hnat =>
          rw [Text.utf8ByteSize_repeated] at hlength
          rw [requireCount_eq_ok.2 ⟨_, rfl, hnat, rfl⟩, Except.ok_bind, requireLength_eq_ok.2 hlength]
          rfl
  · rename_i hother
    refine iff_of_false nofun ?_
    rintro ⟨_, hasks, -⟩
    cases hasks with
    | copies => exact hother _ _ rfl

/-! ## Padded texts -/

/-- The arguments ask for a text to be brought to a width with a character. -/
inductive AsksToPad : List Value → String → Nat → Char → Prop
  | spaces {text : Value} {width : Int64} (hwidth : 0 ≤ width.toInt) :
      AsksToPad [text, .integer width] text.display width.toInt.toNat ' '
  | filled {text fill : Value} {width : Int64} {c : Char} (hwidth : 0 ≤ width.toInt)
      (hfill : fill.display.toList = [c]) :
      AsksToPad [text, .integer width, fill] text.display width.toInt.toNat c

/-- The bytes of the characters that a text lacks to a width. -/
def paddingBytes (text : String) (width : Nat) (c : Char) : Nat :=
  c.utf8Size * (width - text.length)

theorem utf8ByteSize_padding {text : String} {width : Nat} {c : Char} :
    (Text.repeated (String.singleton c) (width - text.length)).utf8ByteSize = paddingBytes text width c := by
  rw [Text.utf8ByteSize_repeated, String.utf8ByteSize_singleton, paddingBytes]

theorem fillChar_eq_ok {c : Char} : fillChar function (some v) = .ok c ↔ v.display.toList = [c] := by
  unfold fillChar
  dsimp only
  split
  · rename_i d hd
    rw [hd, Except.ok.injEq, List.singleton_inj]
  · rename_i hnot
    exact iff_of_false nofun (hnot c)

/-- The padding that a call is given, without the text. -/
theorem padding_eq_ok {text width : Value} {fill : Option Value} {s : String} :
    padding function text width fill = .ok s ↔
      ∃ (i : Int64) (c : Char), width = .integer i ∧ 0 ≤ i.toInt ∧ fillChar function fill = .ok c ∧
        paddingBytes text.display i.toInt.toNat c ≤ maxTextBytes ∧
        s = Text.repeated (String.singleton c) (i.toInt.toNat - text.display.length) := by
  unfold padding
  constructor
  · intro h
    obtain ⟨count, hcount, h⟩ := Except.bind_eq_ok.1 h
    obtain ⟨i, rfl, hnat, rfl⟩ := requireCount_eq_ok.1 hcount
    obtain ⟨c, hc, h⟩ := Except.bind_eq_ok.1 h
    obtain ⟨_, hlength, h⟩ := Except.bind_eq_ok.1 h
    cases h
    exact ⟨i, c, rfl, hnat, hc, requireLength_eq_ok.1 hlength, rfl⟩
  · rintro ⟨i, c, rfl, hnat, hc, hlength, rfl⟩
    rw [requireCount_eq_ok.2 ⟨i, rfl, hnat, rfl⟩, Except.ok_bind, hc, Except.ok_bind]
    dsimp only
    rw [requireLength_eq_ok.2 hlength]
    rfl

/-- A text is padded if the padding is short enough, whatever the length of the text. -/
theorem applyPad_eq_ok {place : String → String → String} :
    applyPad function place args = .ok v ↔
      ∃ text width c, AsksToPad args text width c ∧ paddingBytes text width c ≤ maxTextBytes ∧
        v = .text (place (Text.repeated (String.singleton c) (width - text.length)) text) := by
  unfold applyPad
  split
  · rename_i text width
    rw [Except.bind_eq_ok]
    constructor
    · rintro ⟨s, hs, ⟨⟩⟩
      obtain ⟨i, c, rfl, hnat, ⟨⟩, hlength, rfl⟩ := padding_eq_ok.1 hs
      exact ⟨_, _, _, .spaces hnat, hlength, rfl⟩
    · rintro ⟨_, _, _, hasks, hlength, rfl⟩
      cases hasks with
      | spaces hnat => exact ⟨_, padding_eq_ok.2 ⟨_, _, rfl, hnat, rfl, hlength, rfl⟩, rfl⟩
  · rename_i text width fill
    rw [Except.bind_eq_ok]
    constructor
    · rintro ⟨s, hs, ⟨⟩⟩
      obtain ⟨i, c, rfl, hnat, hfill, hlength, rfl⟩ := padding_eq_ok.1 hs
      exact ⟨_, _, _, .filled hnat (fillChar_eq_ok.1 hfill), hlength, rfl⟩
    · rintro ⟨_, _, _, hasks, hlength, rfl⟩
      cases hasks with
      | filled hnat hfill =>
          exact ⟨_, padding_eq_ok.2 ⟨_, _, rfl, hnat, fillChar_eq_ok.2 hfill, hlength, rfl⟩, rfl⟩
  · rename_i htwo hthree
    refine iff_of_false nofun ?_
    rintro ⟨_, _, _, hasks, -⟩
    cases hasks with
    | spaces => exact htwo _ _ rfl
    | filled => exact hthree _ _ _ rfl

/-- The function pads texts, on a side of its own. -/
def Pads (f : BuiltIn) : Prop :=
  ∃ name side examples place, f = pad name side examples place ∧ ∀ padding text : String,
    (place padding text).utf8ByteSize = text.utf8ByteSize + padding.utf8ByteSize

theorem pads_of_mem {f : BuiltIn} (h : f ∈ [padLeft, padRight]) : Pads f := by
  simp only [List.mem_cons, List.not_mem_nil, or_false] at h
  rcases h with rfl | rfl
  · exact ⟨_, _, _, _, rfl, fun _ _ => by rw [String.utf8ByteSize_append, Nat.add_comm]⟩
  · exact ⟨_, _, _, _, rfl, fun _ _ => String.utf8ByteSize_append⟩

section

variable {f : BuiltIn} {text : String} {width : Nat} {c : Char}

theorem Pads.exists_text (hf : Pads f) (hasks : AsksToPad args text width c)
    (hlength : paddingBytes text width c ≤ maxTextBytes) :
    ∃ s, f.apply args = .ok (.text s) ∧ s.utf8ByteSize = text.utf8ByteSize + paddingBytes text width c := by
  obtain ⟨name, side, examples, place, rfl, hplace⟩ := hf
  refine ⟨_, applyPad_eq_ok.2 ⟨text, width, c, hasks, hlength, rfl⟩, ?_⟩
  rw [hplace, utf8ByteSize_padding]

theorem Pads.asksToPad (hf : Pads f) (h : f.apply args = .ok v) :
    ∃ s text width c, v = .text s ∧ AsksToPad args text width c ∧
      paddingBytes text width c ≤ maxTextBytes ∧
      s.utf8ByteSize = text.utf8ByteSize + paddingBytes text width c := by
  obtain ⟨name, side, examples, place, rfl, hplace⟩ := hf
  obtain ⟨text, width, c, hasks, hlength, rfl⟩ := applyPad_eq_ok.1 h
  refine ⟨_, text, width, c, rfl, hasks, hlength, ?_⟩
  rw [hplace, utf8ByteSize_padding]

end

/-- A text is repeated if the outcome is no longer than texts may be. It is padded with any padding that is
no longer than texts may be, and so it comes out too long wherever it is too long together with its padding. -/
theorem repeated_and_padded (args : List Value) :
    (∀ v, repeatText.apply args = .ok v ↔
        ∃ s, AsksToRepeat args s ∧ s.utf8ByteSize ≤ maxTextBytes ∧ v = .text s) ∧
      ∀ f ∈ [padLeft, padRight],
        (∀ v, f.apply args = .ok v → ∃ s text width c, v = .text s ∧ AsksToPad args text width c ∧
          paddingBytes text width c ≤ maxTextBytes ∧
          s.utf8ByteSize = text.utf8ByteSize + paddingBytes text width c) ∧
        ((∃ s, f.apply args = .ok (.text s) ∧ maxTextBytes < s.utf8ByteSize) ↔
          ∃ text width c, AsksToPad args text width c ∧ paddingBytes text width c ≤ maxTextBytes ∧
            maxTextBytes < text.utf8ByteSize + paddingBytes text width c) := by
  refine ⟨fun v => applyRepeat_eq_ok, fun f hf => ⟨fun v => (pads_of_mem hf).asksToPad, ?_⟩⟩
  constructor
  · rintro ⟨s, hs, hlong⟩
    obtain ⟨_, text, width, c, ⟨⟩, hasks, hlength, hbytes⟩ := (pads_of_mem hf).asksToPad hs
    exact ⟨text, width, c, hasks, hlength, hbytes ▸ hlong⟩
  · rintro ⟨text, width, c, hasks, hlength, hlong⟩
    obtain ⟨s, hs, hbytes⟩ := (pads_of_mem hf).exists_text hasks hlength
    exact ⟨s, hs, hbytes ▸ hlong⟩

/-- Two dots bring `ab` to a width of four. -/
theorem repeated_and_padded_dots :
    padRight ∈ [padLeft, padRight] ∧
      padRight.apply [.text "ab", .integer 4, .text "."] = .ok (.text "ab..") ∧
      ∃ s text width c, Value.text "ab.." = .text s ∧
        AsksToPad [.text "ab", .integer 4, .text "."] text width c ∧
        paddingBytes text width c ≤ maxTextBytes ∧
        s.utf8ByteSize = text.utf8ByteSize + paddingBytes text width c := by
  have hmem : padRight ∈ [padLeft, padRight] := List.mem_cons_of_mem _ List.mem_cons_self
  have hpadding : Text.repeated (String.singleton '.') (4 - "ab".length) = ".." := by
    rw [Text.repeated, Text.repeated, Text.repeated]
    rfl
  have hasks : AsksToPad [.text "ab", .integer 4, .text "."] "ab" 4 '.' := .filled (by decide) rfl
  have hdots : padRight.apply [.text "ab", .integer 4, .text "."] = .ok (.text "ab..") := by
    show applyPad "pad_right" (fun padding text => text ++ padding)
      [.text "ab", .integer 4, .text "."] = .ok (.text ("ab" ++ ".."))
    rw [← hpadding]
    exact applyPad_eq_ok.2 ⟨"ab", 4, '.', hasks, by decide, rfl⟩
  exact ⟨hmem, hdots, ((repeated_and_padded _).2 padRight hmem).1 _ hdots⟩

/-- A padding as long as a text may be makes any text but the empty one too long. -/
theorem padLeft_too_long :
    ∃ s, padLeft.apply [.text "x", .integer 0x1000001, .text "y"] = .ok (.text s) ∧
      s.utf8ByteSize = maxTextBytes + 1 := by
  have hasks : AsksToPad [.text "x", .integer 0x1000001, .text "y"] "x" 0x1000001 'y' :=
    .filled (by decide) rfl
  exact (pads_of_mem List.mem_cons_self).exists_text hasks (by decide)

end Library

end Variorum
