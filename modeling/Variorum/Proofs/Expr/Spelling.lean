import Variorum.Proofs.Expr.Lexing
import Variorum.Proofs.Expr.Literals

/-!
# Sources and their tokens

What the characters of a source spell, its tokens derive, and the other way round. The grammar of
sources may take digits for an integer where a longer number stands, but then it cannot go on.
-/

namespace Variorum

open Token

/-! ## Places -/

namespace Position

variable {p q r : Position} {c : Char} {cs : List Char}

/-- The one place comes first in every source that has both. -/
def Before (p q : Position) : Prop :=
  p.line < q.line ∨ p.line = q.line ∧ p.column < q.column

theorem Before.trans (h : p.Before q) (h' : q.Before r) : p.Before r := by
  unfold Before at *
  omega

theorem not_before_self : ¬p.Before p := by
  unfold Before
  omega

theorem before_next : p.Before (p.next c) := by
  unfold next
  split
  · exact .inl (Nat.lt_succ_self _)
  · exact .inr ⟨rfl, Nat.lt_succ_self _⟩

theorem before_after (h : cs ≠ []) : p.Before (p.after cs) := by
  induction cs generalizing p with
  | nil => exact absurd rfl h
  | cons c cs ih =>
      cases cs with
      | nil => exact before_next
      | cons d cs => exact before_next.trans (ih (List.cons_ne_nil d cs))

theorem eq_nil_of_after_eq (h : p.after cs = p) : cs = [] := by
  refine Decidable.byContradiction fun hcs => ?_
  have hbefore := before_after (p := p) hcs
  rw [h] at hbefore
  exact not_before_self hbefore

end Position

namespace Expr

variable {a b : Cursor} {start : Position} {c : Char} {us : List Token}

/-! ## What stands at the end of a phrase -/

theorem clear_space (h : isSpace c = true) : c ≠ '.' ∧ c ≠ 'e' ∧ c ≠ 'E' := by
  refine ⟨?_, ?_, ?_⟩
  · rintro rfl
    cases h
  · rintro rfl
    cases h
  · rintro rfl
    cases h

/-- Before blanks and a text that begins with another character no digits go on. -/
theorem clear_before {Class : List Char → Prop} {text cs : List Char} (h : a.Takes Class start text b)
    (htext : text = c :: cs) (hc : c ≠ '.' ∧ c ≠ 'e' ∧ c ≠ 'E') : Clear a.ahead := by
  obtain ⟨⟨blanks, hblanks, hahead, -⟩, -⟩ := h
  rw [hahead, htext]
  cases blanks with
  | nil =>
      rintro d ⟨⟩
      exact hc
  | cons d blanks =>
      rintro d' ⟨⟩
      exact clear_space (hblanks d (by simp))

theorem Mark.clear (h : Mark c a start b) (hc : c ≠ '.' ∧ c ≠ 'e' ∧ c ≠ 'E') : Clear a.ahead :=
  clear_before h rfl hc

theorem clear_of_spaces {cs : List Char} (h : ∀ c ∈ cs, isSpace c = true) : Clear cs :=
  fun c hc => clear_space (h c (List.mem_of_mem_head? hc))

theorem clear_symbol (op : BinaryOp) : op.symbol ≠ '.' ∧ op.symbol ≠ 'e' ∧ op.symbol ≠ 'E' := by
  cases op <;> decide

/-! ## Single tokens -/

theorem Mark.scan (h : Mark c a start b) (hc : IsMark c) :
    scan a.place a.ahead = ⟨.symbol c, start⟩ :: scan b.place b.ahead :=
  (h.first hc).scan

theorem exists_mark (h : scan a.place a.ahead = ⟨.symbol c, start⟩ :: us) :
    ∃ b, Mark c a start b ∧ scan b.place b.ahead = us := by
  obtain ⟨b, hfirst, hus⟩ := Cursor.exists_first h
  exact ⟨b, hfirst.mark, hus⟩

theorem Name.scan {word : String} (h : Name word a start b) :
    scan a.place a.ahead = ⟨.word word, start⟩ :: scan b.place b.ahead :=
  (Cursor.takes_word_iff.1 h.1).scan

theorem exists_word {word : String} (h : scan a.place a.ahead = ⟨.word word, start⟩ :: us) :
    ∃ b, a.Takes IsWord start word.toList b ∧ scan b.place b.ahead = us := by
  obtain ⟨b, hfirst, hus⟩ := Cursor.exists_first h
  exact ⟨b, Cursor.takes_word_iff.2 hfirst, hus⟩

/-! ## Bounds -/

theorem longest_signed_digits {ds rest : List Char} (h : Longest IsDigits ds rest) :
    Longest IsSigned ds rest := by
  refine ⟨.inl h.1, fun more hmore hsigned => h.2 more hmore ?_⟩
  rcases hsigned with hdigits | ⟨es, heq, -⟩
  · exact hdigits
  · obtain ⟨d, ds, rfl, hd, -⟩ := Decimal.isDigits_iff.1 h.1
    cases heq
    cases hd

theorem longest_signed_minus {ds rest : List Char} :
    Longest IsSigned ('-' :: ds) rest ↔ Longest IsDigits ds rest := by
  have hminus : ∀ es : List Char, IsSigned ('-' :: es) ↔ IsDigits es := by
    intro es
    constructor
    · rintro (h | ⟨es', heq, h⟩)
      · obtain ⟨d, ds, heq, hd, -⟩ := Decimal.isDigits_iff.1 h
        cases heq
        cases hd
      · cases heq
        exact h
    · exact fun h => .inr ⟨es, rfl, h⟩
  constructor
  · rintro ⟨hclass, hmore⟩
    exact ⟨(hminus ds).1 hclass, fun more hprefix h => hmore more hprefix ((hminus _).2 h)⟩
  · rintro ⟨hclass, hmore⟩
    exact ⟨(hminus ds).2 hclass, fun more hprefix h => hmore more hprefix ((hminus _).1 h)⟩

theorem exists_spellsBound {ts : List Token} {bound : Option Bound} (h : BoundTokens ts bound)
    (hscan : scan a.place a.ahead = ts ++ us) :
    IsBound bound ∧ ∃ b, SpellsBound a b (bound.map Bound.literal) ∧ scan b.place b.ahead = us := by
  cases h with
  | absent => exact ⟨isBound_none, a, .absent, hscan⟩
  | digits ds start =>
      obtain ⟨b, hfirst, hus⟩ := Cursor.exists_first hscan
      obtain ⟨hsplit, hplace, hlongest⟩ := hfirst.takes_digits
      have hsigned := longest_signed_digits hlongest
      refine ⟨?_, b, .present ⟨hsplit, hplace, hsigned⟩, hus⟩
      rintro _ ⟨⟩
      exact hsigned.1
  | negative ds start =>
      simp only [List.cons_append, List.nil_append] at hscan
      obtain ⟨b, hminus, hscan⟩ := exists_mark hscan
      obtain ⟨c, hfirst, hus⟩ := Cursor.exists_first hscan
      obtain ⟨⟨blanks, hblanks, hahead, rfl⟩, hplace, -⟩ := hminus
      obtain ⟨⟨blanks', -, hahead', hstart⟩, hplace', hlongest⟩ := hfirst.takes_digits
      -- The digits stand where the minus ends, so that there are no blanks between them.
      rw [hplace] at hstart
      cases Position.eq_nil_of_after_eq hstart.symm
      rw [List.nil_append] at hahead'
      have hsigned := longest_signed_minus.2 hlongest
      refine ⟨?_, c, .present ⟨⟨blanks, hblanks, ?_, rfl⟩, hplace', hsigned⟩, hus⟩
      · rintro _ ⟨⟩
        exact hsigned.1
      · rw [hahead, hahead']
        rfl

theorem SpellsBound.tokens {lit : Option Literal} (h : SpellsBound a b lit) (hb : Clear b.ahead) :
    ∃ ts bound, scan a.place a.ahead = ts ++ scan b.place b.ahead ∧ BoundTokens ts bound ∧
      IsBound bound ∧ lit = bound.map Bound.literal := by
  cases h with
  | absent => exact ⟨[], none, rfl, .absent, isBound_none, rfl⟩
  | @present _ start ds h =>
      have hbound : IsBound (some ⟨start, ds⟩) := by
        rintro _ ⟨⟩
        exact h.longest.1
      obtain ⟨⟨blanks, hblanks, hahead, rfl⟩, hplace, hlongest⟩ := h
      rcases hlongest.1 with hdigits | ⟨es, rfl, hdigits⟩
      · have hlongest' : Longest IsDigits ds b.ahead :=
          ⟨hdigits, fun more hmore h => hlongest.2 more hmore (.inl h)⟩
        have htakes : a.Takes IsDigits (a.place.after blanks) ds b :=
          ⟨⟨blanks, hblanks, hahead, rfl⟩, hplace, hlongest'⟩
        exact ⟨_, _, (htakes.first_integer hb).scan, .digits _ _, hbound, rfl⟩
      · let middle : Cursor := ⟨(a.place.after blanks).next '-', es ++ b.ahead⟩
        have hminus : Mark '-' a (a.place.after blanks) middle :=
          ⟨⟨blanks, hblanks, hahead, rfl⟩, rfl, longest_mark⟩
        have hdigits : middle.Takes IsDigits ((a.place.after blanks).next '-') es b :=
          ⟨⟨[], List.forall_mem_nil _, rfl, rfl⟩, hplace, longest_signed_minus.1 hlongest⟩
        refine ⟨_, _, ?_, .negative es _, hbound, rfl⟩
        rw [hminus.scan (by decide), (hdigits.first_integer hb).scan]
        rfl

theorem exists_spellsStep {ts : List Token} {step : Option Bound} (h : StepTokens ts step)
    (hscan : scan a.place a.ahead = ts ++ us) :
    IsBound step ∧ ∃ b, SpellsStep a b (step.map Bound.literal) ∧ scan b.place b.ahead = us := by
  cases h with
  | absent => exact ⟨isBound_none, a, .absent, hscan⟩
  | present colon h =>
      obtain ⟨b, hcolon, hus⟩ := exists_mark hscan
      obtain ⟨hbound, c, hspells, hus⟩ := exists_spellsBound h hus
      exact ⟨hbound, c, .present hcolon hspells, hus⟩

theorem SpellsStep.tokens {lit : Option Literal} (h : SpellsStep a b lit) (hb : Clear b.ahead) :
    ∃ ts step, scan a.place a.ahead = ts ++ scan b.place b.ahead ∧ StepTokens ts step ∧
      IsBound step ∧ lit = step.map Bound.literal := by
  cases h with
  | absent => exact ⟨[], none, rfl, .absent, isBound_none, rfl⟩
  | @present _ _ _ colon hcolon h =>
      obtain ⟨ts, bound, hscan, htokens, hbound, rfl⟩ := h.tokens hb
      refine ⟨_, bound, ?_, .present colon htokens, hbound, rfl⟩
      rw [hcolon.scan (by decide), hscan]
      rfl

theorem SpellsStep.clear {lit : Option Literal} (h : SpellsStep a b lit) (hb : Clear b.ahead) :
    Clear a.ahead := by
  cases h with
  | absent => exact hb
  | present hcolon _ => exact hcolon.clear (by decide)

/-! ## From tokens to characters -/

/-- Wherever the tokens stand, the characters spell the expression. -/
def SpelledBy (l : Stratum) (ts : List Token) (e : Expr) : Prop :=
  ∀ a us, scan a.place a.ahead = ts ++ us →
    ∃ b lits, Spells l a b e lits ∧ scan b.place b.ahead = us

theorem exists_spellsList {ts : List Token} {part : List Token × Expr}
    {parts : List (List Token × Expr)} (h : Separated (part.1 :: parts.map (·.1)) ts)
    (hparts : ∀ p ∈ part :: parts, SpelledBy .sum p.1 p.2)
    (hscan : scan a.place a.ahead = ts ++ us) :
    ∃ b lits, SpellsList a b (part.2 :: parts.map (·.2)) lits ∧ scan b.place b.ahead = us := by
  induction parts generalizing part ts a with
  | nil =>
      cases h
      obtain ⟨b, lits, hspells, hus⟩ := hparts part (by simp) a us hscan
      exact ⟨b, lits, .single hspells, hus⟩
  | cons next parts ih =>
      cases h with
      | comma start h =>
          obtain ⟨hpart, hrest⟩ := List.forall_mem_cons.1 hparts
          rw [List.append_assoc] at hscan
          obtain ⟨b, lits, hspells, hscan⟩ := hpart a _ hscan
          obtain ⟨c, hcomma, hscan⟩ := exists_mark hscan
          obtain ⟨d, lits', hlist, hus⟩ := ih h hrest hscan
          exact ⟨d, _, .comma hspells hcomma hlist, hus⟩

theorem exists_spellsArgs {ts : List Token} {parts : List (List Token × Expr)}
    (h : Separated (parts.map (·.1)) ts) (hparts : ∀ p ∈ parts, SpelledBy .sum p.1 p.2)
    (hscan : scan a.place a.ahead = ts ++ us) :
    ∃ b lits, SpellsArgs a b (parts.map (·.2)) lits ∧ scan b.place b.ahead = us := by
  cases parts with
  | nil =>
      cases h
      exact ⟨a, [], .none, hscan⟩
  | cons part parts =>
      obtain ⟨b, lits, hlist, hus⟩ := exists_spellsList h hparts hscan
      exact ⟨b, lits, .some hlist, hus⟩

/-- The induction is on the derivation; each rule takes its tokens one after the other. -/
theorem Derives.spelledBy {l : Stratum} {ts : List Token} {e : Expr} (h : Derives l ts e) :
    SpelledBy l ts e := by
  induction h with
  | name start hword =>
      intro a us hscan
      obtain ⟨b, htakes, hus⟩ := exists_word hscan
      exact ⟨b, [], .name ⟨htakes, hword⟩, hus⟩
  | integer digits start =>
      intro a us hscan
      obtain ⟨b, hfirst, hus⟩ := Cursor.exists_first hscan
      have htakes := hfirst.takes_digits
      exact ⟨b, _, .integer htakes ((means_integer_iff htakes.longest.1).2 rfl), hus⟩
  | float numeral start =>
      intro a us hscan
      obtain ⟨b, hfirst, hus⟩ := Cursor.exists_first hscan
      exact ⟨b, _, .float (Cursor.takes_float_iff.2 hfirst) (means_float_iff.2 rfl), hus⟩
  | text quote raw start =>
      intro a us hscan
      obtain ⟨b, hfirst, hus⟩ := Cursor.exists_first hscan
      exact ⟨b, [], .text (Cursor.takes_quoted_iff.2 hfirst), hus⟩
  | call start opened closed hword hsep _ ih =>
      intro a us hscan
      simp only [List.cons_append, List.append_assoc] at hscan
      obtain ⟨b, hname, hscan⟩ := exists_word hscan
      obtain ⟨c, hopen, hscan⟩ := exists_mark hscan
      obtain ⟨d, lits, hargs, hscan⟩ := exists_spellsArgs hsep ih hscan
      obtain ⟨f, hclose, hus⟩ := exists_mark hscan
      exact ⟨f, lits, .call ⟨hname, hword⟩ hopen hargs hclose, hus⟩
  | qualifiedCall start dot next opened closed hmodule hcallee hsep _ ih =>
      intro a us hscan
      simp only [List.cons_append, List.append_assoc] at hscan
      obtain ⟨b, hname, hscan⟩ := exists_word hscan
      obtain ⟨c, hdot, hscan⟩ := exists_mark hscan
      obtain ⟨d, hname', hscan⟩ := exists_word hscan
      obtain ⟨f, hopen, hscan⟩ := exists_mark hscan
      obtain ⟨g, lits, hargs, hscan⟩ := exists_spellsArgs hsep ih hscan
      obtain ⟨h, hclose, hus⟩ := exists_mark hscan
      exact ⟨h, lits, .qualifiedCall ⟨hname, hmodule⟩ hdot ⟨hname', hcallee⟩ hopen hargs hclose, hus⟩
  | slice start opened colon closed hword hfirst hlast hstep =>
      intro a us hscan
      simp only [List.cons_append, List.append_assoc] at hscan
      obtain ⟨b, hname, hscan⟩ := exists_word hscan
      obtain ⟨c, hopen, hscan⟩ := exists_mark hscan
      obtain ⟨hfirstBound, d, hfirst, hscan⟩ := exists_spellsBound hfirst hscan
      obtain ⟨f, hcolon, hscan⟩ := exists_mark hscan
      obtain ⟨hlastBound, g, hlast, hscan⟩ := exists_spellsBound hlast hscan
      obtain ⟨hstepBound, h, hstep, hscan⟩ := exists_spellsStep hstep hscan
      obtain ⟨i, hclose, hus⟩ := exists_mark hscan
      exact ⟨i, _, .slice ⟨hname, hword⟩ hopen hfirst hcolon hlast hstep hclose
        ((sliceMeans_iff hfirstBound hlastBound hstepBound).2 rfl), hus⟩
  | parens opened closed _ ih =>
      intro a us hscan
      simp only [List.cons_append, List.append_assoc] at hscan
      obtain ⟨b, hopen, hscan⟩ := exists_mark hscan
      obtain ⟨c, lits, hspells, hscan⟩ := ih b _ hscan
      obtain ⟨d, hclose, hus⟩ := exists_mark hscan
      exact ⟨d, lits, .parens hopen hspells hclose, hus⟩
  | cast start next _ htype ih =>
      intro a us hscan
      rw [List.append_assoc] at hscan
      obtain ⟨b, lits, hspells, hscan⟩ := ih a _ hscan
      obtain ⟨c, hkeyword, hscan⟩ := exists_word hscan
      obtain ⟨d, hword, hus⟩ := exists_word hscan
      exact ⟨d, lits, .cast hspells hkeyword hword htype, hus⟩
  | negation start _ ih =>
      intro a us hscan
      obtain ⟨b, hminus, hscan⟩ := exists_mark hscan
      obtain ⟨c, lits, hspells, hus⟩ := ih b us hscan
      exact ⟨c, lits, .negation hminus hspells, hus⟩
  | product start _ hop _ ihl ihr =>
      intro a us hscan
      rw [List.append_assoc] at hscan
      obtain ⟨b, lits, hleft, hscan⟩ := ihl a _ hscan
      obtain ⟨c, hsign, hscan⟩ := exists_mark hscan
      obtain ⟨d, lits', hright, hus⟩ := ihr c us hscan
      exact ⟨d, _, .product hleft hsign hop hright, hus⟩
  | sum start _ hop _ ihl ihr =>
      intro a us hscan
      rw [List.append_assoc] at hscan
      obtain ⟨b, lits, hleft, hscan⟩ := ihl a _ hscan
      obtain ⟨c, hsign, hscan⟩ := exists_mark hscan
      obtain ⟨d, lits', hright, hus⟩ := ihr c us hscan
      exact ⟨d, _, .sum hleft hsign hop hright, hus⟩
  | ofPrimary _ ih =>
      intro a us hscan
      obtain ⟨b, lits, hspells, hus⟩ := ih a us hscan
      exact ⟨b, lits, .ofPrimary hspells, hus⟩
  | ofCast _ ih =>
      intro a us hscan
      obtain ⟨b, lits, hspells, hus⟩ := ih a us hscan
      exact ⟨b, lits, .ofCast hspells, hus⟩
  | ofUnary _ ih =>
      intro a us hscan
      obtain ⟨b, lits, hspells, hus⟩ := ih a us hscan
      exact ⟨b, lits, .ofUnary hspells, hus⟩
  | ofProduct _ ih =>
      intro a us hscan
      obtain ⟨b, lits, hspells, hus⟩ := ih a us hscan
      exact ⟨b, lits, .ofProduct hspells, hus⟩

/-! ## From characters to tokens -/

mutual

/-- Where no digits go on, the tokens of what is spelled are an expression. -/
theorem Spells.tokens {l : Stratum} {a b : Cursor} {e : Expr} {lits : List Literal}
    (h : Spells l a b e lits) (hb : Clear b.ahead) :
    ∃ ts, scan a.place a.ahead = ts ++ scan b.place b.ahead ∧ Derives l ts e := by
  match h with
  | .name hname => exact ⟨_, hname.scan, .name _ hname.2⟩
  | .integer htakes hmeans =>
      rw [means_integer_iff htakes.longest.1] at hmeans
      subst hmeans
      exact ⟨_, (htakes.first_integer hb).scan, .integer _ _⟩
  | .float htakes hmeans =>
      rw [means_float_iff] at hmeans
      subst hmeans
      exact ⟨_, (Cursor.takes_float_iff.1 htakes).scan, .float _ _⟩
  | .text htakes => exact ⟨_, (Cursor.takes_quoted_iff.1 htakes).scan, .text _ _ _⟩
  | @Spells.call _ _ _ _ _ start opened closed _ _ _ hname hopen hargs hclose =>
      obtain ⟨ts, parts, hscan, hsep, hparts, rfl⟩ := hargs.tokens (hclose.clear (by decide))
      refine ⟨_, ?_, .call start opened closed hname.2 hsep hparts⟩
      rw [hname.scan, hopen.scan (by decide), hscan, hclose.scan (by decide)]
      simp
  | @Spells.qualifiedCall _ _ _ _ _ _ _ start dot next opened closed _ _ _ _ hmodule hdot hcallee hopen
      hargs hclose =>
      obtain ⟨ts, parts, hscan, hsep, hparts, rfl⟩ := hargs.tokens (hclose.clear (by decide))
      refine ⟨_, ?_, .qualifiedCall start dot next opened closed hmodule.2 hcallee.2 hsep hparts⟩
      rw [hmodule.scan, hdot.scan (by decide), hcallee.scan, hopen.scan (by decide), hscan,
        hclose.scan (by decide)]
      simp
  | @Spells.slice _ _ _ _ _ _ _ _ start opened colon closed _ _ _ _ _ hname hopen hfirst hcolon hlast
      hstep hclose hmeans =>
      have hclear := hclose.clear (by decide)
      obtain ⟨ts, first, hscan, hts, hfirstBound, rfl⟩ := hfirst.tokens (hcolon.clear (by decide))
      obtain ⟨vs, last, hscan', hvs, hlastBound, rfl⟩ := hlast.tokens (hstep.clear hclear)
      obtain ⟨ws, step, hscan'', hws, hstepBound, rfl⟩ := hstep.tokens hclear
      rw [sliceMeans_iff hfirstBound hlastBound hstepBound] at hmeans
      subst hmeans
      refine ⟨_, ?_, .slice start opened colon closed hname.2 hts hvs hws⟩
      rw [hname.scan, hopen.scan (by decide), hscan, hcolon.scan (by decide), hscan', hscan'',
        hclose.scan (by decide)]
      simp
  | @Spells.parens _ _ _ _ opened closed _ _ hopen hspells hclose =>
      obtain ⟨ts, hscan, hderives⟩ := hspells.tokens (hclose.clear (by decide))
      refine ⟨_, ?_, .parens opened closed hderives⟩
      rw [hopen.scan (by decide), hscan, hclose.scan (by decide)]
      simp
  | @Spells.cast _ _ _ _ start next _ _ _ _ hspells hkeyword hword htype =>
      have hclear := clear_before hkeyword (show castKeyword.toList = ['a', 's'] from rfl) (by decide)
      obtain ⟨ts, hscan, hderives⟩ := hspells.tokens hclear
      refine ⟨_, ?_, .cast start next hderives htype⟩
      rw [hscan, (Cursor.takes_word_iff.1 hkeyword).scan, (Cursor.takes_word_iff.1 hword).scan]
      simp
  | @Spells.negation _ _ _ start _ _ hminus hspells =>
      obtain ⟨ts, hscan, hderives⟩ := hspells.tokens hb
      refine ⟨_, ?_, .negation start hderives⟩
      rw [hminus.scan (by decide), hscan]
      rfl
  | @Spells.product _ _ _ _ start _ _ _ _ _ _ hleft hsign hop hright =>
      obtain ⟨rfl, -⟩ := productOp?_eq_some_iff.1 hop
      obtain ⟨ts, hscan, hl⟩ := hleft.tokens (hsign.clear (clear_symbol _))
      obtain ⟨us, hscan', hr⟩ := hright.tokens hb
      refine ⟨_, ?_, .product start hl hop hr⟩
      rw [hscan, hsign.scan (isMark_symbol _), hscan']
      simp
  | @Spells.sum _ _ _ _ start _ _ _ _ _ _ hleft hsign hop hright =>
      obtain ⟨rfl, -⟩ := sumOp?_eq_some_iff.1 hop
      obtain ⟨ts, hscan, hl⟩ := hleft.tokens (hsign.clear (clear_symbol _))
      obtain ⟨us, hscan', hr⟩ := hright.tokens hb
      refine ⟨_, ?_, .sum start hl hop hr⟩
      rw [hscan, hsign.scan (isMark_symbol _), hscan']
      simp
  | .ofPrimary hspells =>
      obtain ⟨ts, hscan, hderives⟩ := hspells.tokens hb
      exact ⟨ts, hscan, .ofPrimary hderives⟩
  | .ofCast hspells =>
      obtain ⟨ts, hscan, hderives⟩ := hspells.tokens hb
      exact ⟨ts, hscan, .ofCast hderives⟩
  | .ofUnary hspells =>
      obtain ⟨ts, hscan, hderives⟩ := hspells.tokens hb
      exact ⟨ts, hscan, .ofUnary hderives⟩
  | .ofProduct hspells =>
      obtain ⟨ts, hscan, hderives⟩ := hspells.tokens hb
      exact ⟨ts, hscan, .ofProduct hderives⟩

theorem SpellsArgs.tokens {a b : Cursor} {es : List Expr} {lits : List Literal}
    (h : SpellsArgs a b es lits) (hb : Clear b.ahead) :
    ∃ (ts : List Token) (parts : List (List Token × Expr)),
      scan a.place a.ahead = ts ++ scan b.place b.ahead ∧ Separated (parts.map (·.1)) ts ∧
        (∀ part ∈ parts, Derives .sum part.1 part.2) ∧ parts.map (·.2) = es := by
  match h with
  | .none => exact ⟨[], [], rfl, .nil, List.forall_mem_nil _, rfl⟩
  | .some hlist =>
      obtain ⟨ts, part, parts, hscan, hsep, hparts, hes⟩ := hlist.tokens hb
      exact ⟨ts, part :: parts, hscan, hsep, hparts, hes⟩

theorem SpellsList.tokens {a b : Cursor} {es : List Expr} {lits : List Literal}
    (h : SpellsList a b es lits) (hb : Clear b.ahead) :
    ∃ (ts : List Token) (part : List Token × Expr) (parts : List (List Token × Expr)),
      scan a.place a.ahead = ts ++ scan b.place b.ahead ∧
        Separated (part.1 :: parts.map (·.1)) ts ∧
        (∀ p ∈ part :: parts, Derives .sum p.1 p.2) ∧ part.2 :: parts.map (·.2) = es := by
  match h with
  | .single hspells =>
      obtain ⟨ts, hscan, hderives⟩ := hspells.tokens hb
      exact ⟨ts, (ts, _), [], hscan, .single, List.forall_mem_singleton.2 hderives, rfl⟩
  | @SpellsList.comma _ _ _ _ start _ _ _ _ hspells hcomma hlist =>
      obtain ⟨ts, hscan, hderives⟩ := hspells.tokens (hcomma.clear (by decide))
      obtain ⟨us, part, parts, hscan', hsep, hparts, rfl⟩ := hlist.tokens hb
      refine ⟨_, (ts, _), part :: parts, ?_, .comma start hsep,
        List.forall_mem_cons.2 ⟨hderives, hparts⟩, rfl⟩
      rw [hscan, hcomma.scan (by decide), hscan']
      simp

end

end Expr

end Variorum
