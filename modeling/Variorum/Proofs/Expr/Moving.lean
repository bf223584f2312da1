import Mathlib.Data.List.Forall2
import Variorum.Proofs.Expr.Lines
import Variorum.Proofs.Expr.Source

/-!
# Sources further down

Further down a source spells the same tree on later lines. Its columns matter only to the errors of
numbers that are out of range.
-/

namespace Variorum

variable {k : Nat} {free : Prop}

/-! ## Places -/

namespace Position

variable {p q : Position} {c : Char} {cs : List Char}

/-- The second place is `k` lines further down, in the same column unless columns are free. -/
structure Below (k : Nat) (free : Prop) (p q : Position) : Prop where
  line_eq : q.line = p.line + k
  column_eq : ¬free → q.column = p.column

theorem Below.next (h : Below k free p q) : Below k free (p.next c) (q.next c) := by
  unfold Position.next
  split
  · exact ⟨by rw [h.line_eq, Nat.add_right_comm], fun _ => rfl⟩
  · exact ⟨h.line_eq, fun hfree => by rw [h.column_eq hfree]⟩

theorem Below.after (h : Below k free p q) : Below k free (p.after cs) (q.after cs) := by
  induction cs generalizing p q with
  | nil => exact h
  | cons c cs ih => exact ih h.next

end Position

/-- The same characters, further down. -/
structure Cursor.Below (k : Nat) (free : Prop) (a a' : Cursor) : Prop where
  place : a.place.Below k free a'.place
  ahead_eq : a'.ahead = a.ahead

variable {a b a' : Cursor} {start : Position}

theorem Cursor.Takes.move {Class : List Char → Prop} {text : List Char}
    (h : a.Takes Class start text b) (ha : a.Below k free a') :
    ∃ start' b', a'.Takes Class start' text b' ∧ start.Below k free start' ∧ b.Below k free b' := by
  obtain ⟨⟨blanks, hblanks, hahead, rfl⟩, hplace, hlongest⟩ := h
  have hstart : (a.place.after blanks).Below k free (a'.place.after blanks) := ha.place.after
  refine ⟨_, ⟨(a'.place.after blanks).after text, b.ahead⟩,
    ⟨⟨blanks, hblanks, ha.ahead_eq.trans hahead, rfl⟩, rfl, hlongest⟩, hstart, ?_, rfl⟩
  rw [hplace]
  exact hstart.after

namespace Expr

variable {lit lit' : Literal} {e : Expr}

/-! ## Numbers -/

/-- The same number, further down. -/
structure Literal.Below (k : Nat) (free : Prop) (lit lit' : Literal) : Prop where
  kind_eq : lit'.kind = lit.kind
  start : lit.start.Below k free lit'.start
  source_eq : lit'.source = lit.source

theorem Literal.Below.inRange_iff (h : lit.Below k free lit') : lit'.InRange ↔ lit.InRange := by
  unfold InRange
  rw [h.kind_eq, h.source_eq]

theorem Literal.Below.error_eq (h : lit.Below k free lit') (hfree : ¬free) :
    lit'.error = { lit.error with line := lit.error.line + k } := by
  unfold error
  rw [h.kind_eq, h.source_eq, h.start.line_eq, h.start.column_eq hfree]

theorem Literal.Means.move (h : lit.Means e) (hlit : lit.Below k free lit')
    (hrange : free → lit.InRange) : lit'.Means (e.mapLines (· + k)) := by
  cases h with
  | integer hkind hi =>
      rw [mapLines, ← hlit.start.line_eq]
      rw [← hlit.kind_eq] at hkind
      rw [← hlit.source_eq] at hi
      exact .integer hkind hi
  | float hkind hread hfinite =>
      rw [mapLines, ← hlit.start.line_eq]
      rw [← hlit.kind_eq] at hkind
      rw [← hlit.source_eq] at hread
      exact .float hkind hread hfinite
  | outOfRange hout =>
      have hfree : ¬free := fun h => hout (hrange h)
      rw [mapLines, ← hlit.error_eq hfree]
      exact .outOfRange fun h => hout (hlit.inRange_iff.1 h)

theorem find?_below {lits lits' : List Literal} (h : List.Forall₂ (Literal.Below k free) lits lits') :
    Option.Rel (Literal.Below k free) (lits.find? (¬·.InRange)) (lits'.find? (¬·.InRange)) := by
  induction h with
  | nil => exact .none
  | @cons lit lit' lits lits' hlit _ ih =>
      by_cases hrange : lit.InRange
      · have hrange' := hlit.inRange_iff.2 hrange
        simpa only [List.find?_cons, hrange, hrange', not_true_eq_false, decide_false] using ih
      · have hrange' : ¬lit'.InRange := fun h => hrange (hlit.inRange_iff.1 h)
        simpa only [List.find?_cons, hrange, hrange', not_false_eq_true, decide_true] using
          Option.Rel.some hlit

/-! ## Slices -/

variable {bound bound' : Option Literal}

theorem SpellsBound.move (h : SpellsBound a b bound) (ha : a.Below k free a') :
    ∃ b' bound', SpellsBound a' b' bound' ∧ b.Below k free b' ∧
      Option.Rel (Literal.Below k free) bound bound' := by
  cases h with
  | absent => exact ⟨a', none, .absent, ha, .none⟩
  | present h =>
      obtain ⟨start', b', htakes, hstart, hb⟩ := h.move ha
      exact ⟨b', _, .present htakes, hb, .some ⟨rfl, hstart, rfl⟩⟩

theorem SpellsStep.move (h : SpellsStep a b bound) (ha : a.Below k free a') :
    ∃ b' bound', SpellsStep a' b' bound' ∧ b.Below k free b' ∧
      Option.Rel (Literal.Below k free) bound bound' := by
  cases h with
  | absent => exact ⟨a', none, .absent, ha, .none⟩
  | present hcolon h =>
      obtain ⟨colon', c', hcolon, -, hc⟩ := Cursor.Takes.move hcolon ha
      obtain ⟨b', bound', hbound, hb, hrel⟩ := h.move hc
      exact ⟨b', bound', .present hcolon hbound, hb, hrel⟩

theorem forall₂_toList (h : Option.Rel (Literal.Below k free) bound bound') :
    List.Forall₂ (Literal.Below k free) bound.toList bound'.toList := by
  cases h with
  | none => exact .nil
  | some h => exact .cons h .nil

theorem BoundMeans.move {i : Option Int64} (h : BoundMeans bound i)
    (hrel : Option.Rel (Literal.Below k free) bound bound') : BoundMeans bound' i := by
  cases h with
  | absent =>
      cases hrel
      exact .absent
  | present hi =>
      cases hrel with
      | some hlit =>
          rw [← hlit.source_eq] at hi
          exact .present hi

theorem SliceMeans.move {line : Nat} {parameter : String} {first last step first' last' step'}
    (h : SliceMeans line parameter first last step e)
    (hfirst : Option.Rel (Literal.Below k free) first first')
    (hlast : Option.Rel (Literal.Below k free) last last')
    (hstep : Option.Rel (Literal.Below k free) step step')
    (hrange : free → ∀ lit ∈ first.toList ++ last.toList ++ step.toList, lit.InRange) :
    SliceMeans (line + k) parameter first' last' step' (e.mapLines (· + k)) := by
  cases h with
  | inRange hi hj hk =>
      rw [mapLines]
      exact .inRange (hi.move hfirst) (hj.move hlast) (hk.move hstep)
  | @outOfRange lit hfind =>
      have hfree : ¬free := by
        intro hfree
        have hout := List.find?_some hfind
        simp [hrange hfree lit (List.mem_of_find?_eq_some hfind)] at hout
      have hrel := find?_below (List.rel_append (List.rel_append (forall₂_toList hfirst)
        (forall₂_toList hlast)) (forall₂_toList hstep))
      rw [hfind] at hrel
      cases hfind' : (first'.toList ++ last'.toList ++ step'.toList).find? (¬·.InRange) with
      | none =>
          rw [hfind'] at hrel
          cases hrel
      | some lit' =>
          rw [hfind'] at hrel
          cases hrel with
          | some hlit =>
              rw [mapLines, ← hlit.error_eq hfree]
              exact .outOfRange hfind'

/-! ## Phrases -/

mutual

theorem Spells.move {l : Stratum} {a b a' : Cursor} {e : Expr} {lits : List Literal}
    (h : Spells l a b e lits) (ha : a.Below k free a') (hlits : free → ∀ lit ∈ lits, lit.InRange) :
    ∃ b' lits', Spells l a' b' (e.mapLines (· + k)) lits' ∧ b.Below k free b' ∧
      List.Forall₂ (Literal.Below k free) lits lits' := by
  match h with
  | .name hname =>
      obtain ⟨start, b', hname', hstart, hb⟩ := hname.1.move ha
      rw [mapLines, ← hstart.line_eq]
      exact ⟨b', [], .name ⟨hname', hname.2⟩, hb, .nil⟩
  | .integer htakes hmeans =>
      obtain ⟨start, b', htakes, hstart, hb⟩ := htakes.move ha
      exact ⟨b', _, .integer htakes (hmeans.move ⟨rfl, hstart, rfl⟩ fun h => hlits h _ (by simp)), hb,
        .cons ⟨rfl, hstart, rfl⟩ .nil⟩
  | .float htakes hmeans =>
      obtain ⟨start, b', htakes, hstart, hb⟩ := htakes.move ha
      exact ⟨b', _, .float htakes (hmeans.move ⟨rfl, hstart, rfl⟩ fun h => hlits h _ (by simp)), hb,
        .cons ⟨rfl, hstart, rfl⟩ .nil⟩
  | .text htakes =>
      obtain ⟨start, b', htakes, hstart, hb⟩ := htakes.move ha
      rw [mapLines, ← hstart.line_eq]
      exact ⟨b', [], .text htakes, hb, .nil⟩
  | .call hname hopen hargs hclose =>
      obtain ⟨start, b', hname', hstart, hb⟩ := hname.1.move ha
      obtain ⟨_, c', hopen, -, hc⟩ := Cursor.Takes.move hopen hb
      obtain ⟨d', lits', hargs, hd, hrel⟩ := hargs.move hc hlits
      obtain ⟨_, f', hclose, -, hf⟩ := Cursor.Takes.move hclose hd
      rw [mapLines, ← hstart.line_eq]
      exact ⟨f', lits', .call ⟨hname', hname.2⟩ hopen hargs hclose, hf, hrel⟩
  | .qualifiedCall hmodule hdot hcallee hopen hargs hclose =>
      obtain ⟨start, b', hmodule', hstart, hb⟩ := hmodule.1.move ha
      obtain ⟨_, c', hdot, -, hc⟩ := Cursor.Takes.move hdot hb
      obtain ⟨_, d', hcallee', -, hd⟩ := hcallee.1.move hc
      obtain ⟨_, f', hopen, -, hf⟩ := Cursor.Takes.move hopen hd
      obtain ⟨g', lits', hargs, hg, hrel⟩ := hargs.move hf hlits
      obtain ⟨_, h', hclose, -, hh⟩ := Cursor.Takes.move hclose hg
      rw [mapLines, ← hstart.line_eq]
      exact ⟨h', lits', .qualifiedCall ⟨hmodule', hmodule.2⟩ hdot ⟨hcallee', hcallee.2⟩ hopen hargs
        hclose, hh, hrel⟩
  | .slice hname hopen hfirst hcolon hlast hstep hclose hmeans =>
      obtain ⟨start, b', hname', hstart, hb⟩ := hname.1.move ha
      obtain ⟨_, c', hopen, -, hc⟩ := Cursor.Takes.move hopen hb
      obtain ⟨d', first', hfirst, hd, hrelFirst⟩ := hfirst.move hc
      obtain ⟨_, f', hcolon, -, hf⟩ := Cursor.Takes.move hcolon hd
      obtain ⟨g', last', hlast, hg, hrelLast⟩ := hlast.move hf
      obtain ⟨h', step', hstep, hh, hrelStep⟩ := hstep.move hg
      obtain ⟨_, i', hclose, -, hi⟩ := Cursor.Takes.move hclose hh
      have hmeans := hmeans.move hrelFirst hrelLast hrelStep hlits
      rw [← hstart.line_eq] at hmeans
      exact ⟨i', _, .slice ⟨hname', hname.2⟩ hopen hfirst hcolon hlast hstep hclose hmeans, hi,
        List.rel_append (List.rel_append (forall₂_toList hrelFirst) (forall₂_toList hrelLast))
          (forall₂_toList hrelStep)⟩
  | .parens hopen hspells hclose =>
      obtain ⟨_, b', hopen, -, hb⟩ := Cursor.Takes.move hopen ha
      obtain ⟨c', lits', hspells, hc, hrel⟩ := hspells.move hb hlits
      obtain ⟨_, d', hclose, -, hd⟩ := Cursor.Takes.move hclose hc
      exact ⟨d', lits', .parens hopen hspells hclose, hd, hrel⟩
  | .cast hspells hkeyword hword htype =>
      obtain ⟨b', lits', hspells, hb, hrel⟩ := hspells.move ha hlits
      obtain ⟨_, c', hkeyword, -, hc⟩ := hkeyword.move hb
      obtain ⟨_, d', hword, -, hd⟩ := hword.move hc
      rw [mapLines, ← line_mapLines (· + k)]
      exact ⟨d', lits', .cast hspells hkeyword hword htype, hd, hrel⟩
  | .negation hminus hspells =>
      obtain ⟨start, b', hminus, hstart, hb⟩ := Cursor.Takes.move hminus ha
      obtain ⟨c', lits', hspells, hc, hrel⟩ := hspells.move hb hlits
      rw [mapLines, ← hstart.line_eq]
      exact ⟨c', lits', .negation hminus hspells, hc, hrel⟩
  | .product hleft hsign hop hright =>
      obtain ⟨b', lits', hleft, hb, hrel⟩ := hleft.move ha fun h => (List.forall_mem_append.1 (hlits h)).1
      obtain ⟨_, c', hsign, -, hc⟩ := Cursor.Takes.move hsign hb
      obtain ⟨d', lits'', hright, hd, hrel'⟩ :=
        hright.move hc fun h => (List.forall_mem_append.1 (hlits h)).2
      rw [mapLines, ← line_mapLines (· + k)]
      exact ⟨d', _, .product hleft hsign hop hright, hd, List.rel_append hrel hrel'⟩
  | .sum hleft hsign hop hright =>
      obtain ⟨b', lits', hleft, hb, hrel⟩ := hleft.move ha fun h => (List.forall_mem_append.1 (hlits h)).1
      obtain ⟨_, c', hsign, -, hc⟩ := Cursor.Takes.move hsign hb
      obtain ⟨d', lits'', hright, hd, hrel'⟩ :=
        hright.move hc fun h => (List.forall_mem_append.1 (hlits h)).2
      rw [mapLines, ← line_mapLines (· + k)]
      exact ⟨d', _, .sum hleft hsign hop hright, hd, List.rel_append hrel hrel'⟩
  | .ofPrimary hspells =>
      obtain ⟨b', lits', hspells, hb, hrel⟩ := hspells.move ha hlits
      exact ⟨b', lits', .ofPrimary hspells, hb, hrel⟩
  | .ofCast hspells =>
      obtain ⟨b', lits', hspells, hb, hrel⟩ := hspells.move ha hlits
      exact ⟨b', lits', .ofCast hspells, hb, hrel⟩
  | .ofUnary hspells =>
      obtain ⟨b', lits', hspells, hb, hrel⟩ := hspells.move ha hlits
      exact ⟨b', lits', .ofUnary hspells, hb, hrel⟩
  | .ofProduct hspells =>
      obtain ⟨b', lits', hspells, hb, hrel⟩ := hspells.move ha hlits
      exact ⟨b', lits', .ofProduct hspells, hb, hrel⟩

theorem SpellsArgs.move {a b a' : Cursor} {es : List Expr} {lits : List Literal}
    (h : SpellsArgs a b es lits) (ha : a.Below k free a')
    (hlits : free → ∀ lit ∈ lits, lit.InRange) :
    ∃ b' lits', SpellsArgs a' b' (mapLinesOfAll (· + k) es) lits' ∧ b.Below k free b' ∧
      List.Forall₂ (Literal.Below k free) lits lits' := by
  match h with
  | .none => exact ⟨a', [], .none, ha, .nil⟩
  | .some hlist =>
      obtain ⟨b', lits', hlist, hb, hrel⟩ := hlist.move ha hlits
      exact ⟨b', lits', .some hlist, hb, hrel⟩

theorem SpellsList.move {a b a' : Cursor} {es : List Expr} {lits : List Literal}
    (h : SpellsList a b es lits) (ha : a.Below k free a')
    (hlits : free → ∀ lit ∈ lits, lit.InRange) :
    ∃ b' lits', SpellsList a' b' (mapLinesOfAll (· + k) es) lits' ∧ b.Below k free b' ∧
      List.Forall₂ (Literal.Below k free) lits lits' := by
  match h with
  | .single hspells =>
      obtain ⟨b', lits', hspells, hb, hrel⟩ := hspells.move ha hlits
      exact ⟨b', lits', .single hspells, hb, hrel⟩
  | .comma hspells hcomma hlist =>
      obtain ⟨b', lits', hspells, hb, hrel⟩ :=
        hspells.move ha fun h => (List.forall_mem_append.1 (hlits h)).1
      obtain ⟨_, c', hcomma, -, hc⟩ := Cursor.Takes.move hcomma hb
      obtain ⟨d', lits'', hlist, hd, hrel'⟩ :=
        hlist.move hc fun h => (List.forall_mem_append.1 (hlits h)).2
      exact ⟨d', _, .comma hspells hcomma hlist, hd, List.rel_append hrel hrel'⟩

end

end Expr

end Variorum
