import Variorum.Proofs.Expr.Moving
import Variorum.Proofs.Expr.Soundness
import Variorum.Proofs.Expr.Spelling

/-!
# Reading is exact

A source is read exactly if it spells an expression whose numbers are all in range, and it spells no
other tree. If some of them are not, the error is that of the leftmost.
-/

namespace Variorum

/-! ## Places -/

namespace Position

variable {p q : Position} {cs : List Char}

theorem Before.asymm (h : p.Before q) : ¬q.Before p := by
  unfold Before at *
  omega

theorem not_after_before : ¬(p.after cs).Before p := by
  intro h
  by_cases hcs : cs = []
  · rw [hcs] at h
    exact not_before_self h
  · exact h.asymm (before_after hcs)

end Position

namespace Expr

variable {a b : Cursor} {start p q r : Position} {lits lits' : List Literal} {e : Expr}

/-! ## Numbers in their order -/

/-- The numbers stand one after the other between two places. -/
structure Ordered (p q : Position) (lits : List Literal) : Prop where
  le : ¬q.Before p
  within : ∀ lit ∈ lits, ¬lit.start.Before p ∧ lit.start.Before q
  pairwise : lits.Pairwise fun lit lit' => lit.start.Before lit'.start

theorem Ordered.append (h : Ordered p q lits) (h' : Ordered q r lits') : Ordered p r (lits ++ lits') where
  le := by
    have hle := h.le
    have hle' := h'.le
    unfold Position.Before at *
    omega
  within := by
    have hle := h.le
    have hle' := h'.le
    rintro lit hlit
    unfold Position.Before at *
    rcases List.mem_append.1 hlit with hlit | hlit
    · have hwithin := h.within lit hlit
      unfold Position.Before at hwithin
      omega
    · have hwithin := h'.within lit hlit
      unfold Position.Before at hwithin
      omega
  pairwise := by
    refine List.pairwise_append.2 ⟨h.pairwise, h'.pairwise, fun lit hlit lit' hlit' => ?_⟩
    have hwithin := (h.within lit hlit).2
    have hwithin' := (h'.within lit' hlit').1
    unfold Position.Before at *
    omega

variable {Class : List Char → Prop} {text : List Char}

theorem ordered_takes (h : a.Takes Class start text b) : Ordered a.place b.place [] where
  le := by
    obtain ⟨⟨blanks, -, -, rfl⟩, hplace, -⟩ := h
    rw [hplace, ← Token.after_append]
    exact Position.not_after_before
  within := List.forall_mem_nil _
  pairwise := .nil

theorem ordered_literal {kind : LiteralKind} (h : a.Takes Class start text b) (htext : text ≠ []) :
    Ordered a.place b.place [⟨kind, start, text⟩] where
  le := (ordered_takes h).le
  within := by
    obtain ⟨⟨blanks, -, -, rfl⟩, hplace, -⟩ := h
    rw [hplace]
    exact List.forall_mem_singleton.2 ⟨Position.not_after_before, Position.before_after htext⟩
  pairwise := List.pairwise_singleton _ _

theorem ordered_digits {kind : LiteralKind} (h : a.Takes IsDigits start text b) :
    Ordered a.place b.place [⟨kind, start, text⟩] := by
  obtain ⟨d, ds, rfl, -⟩ := Decimal.isDigits_iff.1 h.longest.1
  exact ordered_literal h (List.cons_ne_nil d ds)

theorem SpellsBound.ordered {bound : Option Literal} (h : SpellsBound a b bound) :
    Ordered a.place b.place bound.toList := by
  cases h with
  | absent => exact ⟨Position.not_before_self, List.forall_mem_nil _, .nil⟩
  | present h =>
      refine ordered_literal h ?_
      rcases h.longest.1 with hdigits | ⟨ds, rfl, -⟩
      · rintro rfl
        cases hdigits
      · exact List.cons_ne_nil _ _

theorem SpellsStep.ordered {bound : Option Literal} (h : SpellsStep a b bound) :
    Ordered a.place b.place bound.toList := by
  cases h with
  | absent => exact ⟨Position.not_before_self, List.forall_mem_nil _, .nil⟩
  | present hcolon h => exact (ordered_takes hcolon).append h.ordered

mutual

theorem Spells.ordered {l : Stratum} {a b : Cursor} {e : Expr} {lits : List Literal}
    (h : Spells l a b e lits) : Ordered a.place b.place lits := by
  match h with
  | .name hname => exact ordered_takes hname.1
  | .integer htakes _ => exact ordered_digits htakes
  | .float htakes _ =>
      obtain ⟨c, cs, rfl, -⟩ := Cursor.FloatNumeral.exists_digit htakes.longest.1
      exact ordered_literal htakes (List.cons_ne_nil c cs)
  | .text htakes => exact ordered_takes htakes
  | .call hname hopen hargs hclose =>
      have hrest := hargs.ordered.append (ordered_takes hclose)
      simpa using ((ordered_takes hname.1).append (ordered_takes hopen)).append hrest
  | .qualifiedCall hmodule hdot hcallee hopen hargs hclose =>
      have hhead := ((ordered_takes hmodule.1).append (ordered_takes hdot)).append
        ((ordered_takes hcallee.1).append (ordered_takes hopen))
      simpa using hhead.append (hargs.ordered.append (ordered_takes hclose))
  | .slice hname hopen hfirst hcolon hlast hstep hclose _ =>
      have hhead := ((ordered_takes hname.1).append (ordered_takes hopen)).append hfirst.ordered
      have hrest := hlast.ordered.append (hstep.ordered.append (ordered_takes hclose))
      simpa using hhead.append ((ordered_takes hcolon).append hrest)
  | .parens hopen hspells hclose =>
      simpa using (ordered_takes hopen).append (hspells.ordered.append (ordered_takes hclose))
  | .cast hspells hkeyword hword _ =>
      simpa using hspells.ordered.append ((ordered_takes hkeyword).append (ordered_takes hword))
  | .negation hminus hspells => exact (ordered_takes hminus).append hspells.ordered
  | .product hleft hsign _ hright =>
      exact hleft.ordered.append ((ordered_takes hsign).append hright.ordered)
  | .sum hleft hsign _ hright =>
      exact hleft.ordered.append ((ordered_takes hsign).append hright.ordered)
  | .ofPrimary hspells => exact hspells.ordered
  | .ofCast hspells => exact hspells.ordered
  | .ofUnary hspells => exact hspells.ordered
  | .ofProduct hspells => exact hspells.ordered

theorem SpellsArgs.ordered {a b : Cursor} {es : List Expr} {lits : List Literal}
    (h : SpellsArgs a b es lits) : Ordered a.place b.place lits := by
  match h with
  | .none => exact ⟨Position.not_before_self, List.forall_mem_nil _, .nil⟩
  | .some hlist => exact hlist.ordered

theorem SpellsList.ordered {a b : Cursor} {es : List Expr} {lits : List Literal}
    (h : SpellsList a b es lits) : Ordered a.place b.place lits := by
  match h with
  | .single hspells => exact hspells.ordered
  | .comma hspells hcomma hlist =>
      exact hspells.ordered.append ((ordered_takes hcomma).append hlist.ordered)

end

/-! ## Errors in their order -/

/-- The error of the first number that is out of range, if one is. -/
def firstError? (lits : List Literal) : Option ParseError :=
  (lits.find? (¬·.InRange)).map Literal.error

theorem firstError?_append : firstError? (lits ++ lits') = (firstError? lits).or (firstError? lits') := by
  rw [firstError?, List.find?_append, Option.map_or]
  rfl

theorem firstError?_inRange {lit : Literal} (h : lit.InRange) : firstError? [lit] = none := by
  simp [firstError?, h]

theorem firstError?_outOfRange {lit : Literal} (h : ¬lit.InRange) :
    firstError? [lit] = some lit.error := by
  simp [firstError?, h]

theorem Literal.Means.head?_errors {lit : Literal} (h : lit.Means e) :
    e.errors.head? = firstError? [lit] := by
  cases h with
  | @integer i hkind hi =>
      refine (firstError?_inRange ?_).symm
      rw [InRange, hkind, ← hi]
      exact Integer.inRange_toInt i
  | float hkind hread hfinite =>
      refine (firstError?_inRange ?_).symm
      rw [InRange, hkind, hread]
      exact hfinite
  | outOfRange hout => exact (firstError?_outOfRange hout).symm

theorem SpellsBound.firstError? {bound : Option Literal} {i : Option Int64} (h : SpellsBound a b bound)
    (hi : BoundMeans bound i) : firstError? bound.toList = none := by
  cases h with
  | absent => rfl
  | present h =>
      cases hi with
      | @present _ i hi =>
          refine firstError?_inRange ?_
          rw [Literal.InRange, ← hi]
          exact Integer.inRange_toInt i

theorem SpellsStep.firstError? {bound : Option Literal} {i : Option Int64} (h : SpellsStep a b bound)
    (hi : BoundMeans bound i) : firstError? bound.toList = none := by
  cases h with
  | absent => rfl
  | present _ h => exact h.firstError? hi

mutual

theorem Spells.head?_errors {l : Stratum} {a b : Cursor} {e : Expr} {lits : List Literal}
    (h : Spells l a b e lits) : e.errors.head? = firstError? lits := by
  match h with
  | .name _ => rfl
  | .integer _ hmeans => exact hmeans.head?_errors
  | .float _ hmeans => exact hmeans.head?_errors
  | .text _ => rfl
  | .call _ _ hargs _ => exact hargs.head?_errors
  | .qualifiedCall _ _ _ _ hargs _ => exact hargs.head?_errors
  | .slice _ _ hfirst _ hlast hstep _ hmeans =>
      cases hmeans with
      | inRange hi hj hk =>
          rw [firstError?_append, firstError?_append, hfirst.firstError? hi, hlast.firstError? hj,
            hstep.firstError? hk]
          rfl
      | outOfRange hfind =>
          rw [firstError?, hfind]
          rfl
  | .parens _ hspells _ => exact hspells.head?_errors
  | .cast hspells _ _ _ => exact hspells.head?_errors
  | .negation _ hspells => exact hspells.head?_errors
  | .product hleft _ _ hright | .sum hleft _ _ hright =>
      rw [firstError?_append, ← hleft.head?_errors, ← hright.head?_errors, ← List.head?_append,
        errors, errors, errors, ← List.filterMap_append]
      rfl
  | .ofPrimary hspells => exact hspells.head?_errors
  | .ofCast hspells => exact hspells.head?_errors
  | .ofUnary hspells => exact hspells.head?_errors
  | .ofProduct hspells => exact hspells.head?_errors

theorem SpellsArgs.head?_errors {a b : Cursor} {es : List Expr} {lits : List Literal}
    (h : SpellsArgs a b es lits) : ((nodesOfAll es).filterMap error?).head? = firstError? lits := by
  match h with
  | .none => rfl
  | .some hlist => exact hlist.head?_errors

theorem SpellsList.head?_errors {a b : Cursor} {es : List Expr} {lits : List Literal}
    (h : SpellsList a b es lits) : ((nodesOfAll es).filterMap error?).head? = firstError? lits := by
  match h with
  | .single hspells =>
      rw [nodesOfAll, nodesOfAll, List.append_nil]
      exact hspells.head?_errors
  | .comma hspells _ hlist =>
      rw [firstError?_append, ← hspells.head?_errors, ← hlist.head?_errors, ← List.head?_append,
        errors, ← List.filterMap_append]
      rfl

end

theorem firstError?_eq_none_iff : firstError? lits = none ↔ ∀ lit ∈ lits, lit.InRange := by
  simp [firstError?]

/-- The first number that is out of range is the leftmost one. -/
theorem leftmost_of_find? {lit : Literal} (h : lits.find? (¬·.InRange) = some lit)
    (hordered : lits.Pairwise fun lit lit' => lit.start.Before lit'.start) :
    ∀ lit' ∈ lits, ¬lit'.InRange → lit' = lit ∨ lit.start.Before lit'.start := by
  obtain ⟨-, before, behind, rfl, hbefore⟩ := List.find?_eq_some_iff_append.1 h
  intro lit' hlit' hout
  rcases List.mem_append.1 hlit' with hlit' | hlit'
  · have hrange := hbefore lit' hlit'
    simp [hout] at hrange
  · rcases List.mem_cons.1 hlit' with rfl | hlit'
    · exact .inl rfl
    · exact .inr (List.rel_of_pairwise_cons (List.pairwise_append.1 hordered).2.1 hlit')

/-! ## Sources -/

variable {source : String} {line : Nat}

theorem scan_eq_nil_iff {p : Position} {cs : List Char} :
    Token.scan p cs = [] ↔ ∀ c ∈ cs, Token.isSpace c = true := by
  constructor
  · intro h
    fun_induction Token.scan p cs with
    | case1 => exact List.forall_mem_nil _
    | case2 p c cs hc ih => exact List.forall_mem_cons.2 ⟨hc, ih h⟩
    | case3 => cases h
  · intro h
    have hscan : Token.scan p (cs ++ []) = Token.scan (p.after cs) [] := Cursor.scan_blanks h
    rw [List.append_nil] at hscan
    rw [hscan, Token.scan_nil]

/-- A source spells the trees that its tokens derive. -/
theorem exists_spelled_iff : (∃ lits, Spelled source line e lits) ↔
    Derives .sum (Token.scan ⟨line, 1⟩ source.toList) e := by
  constructor
  · rintro ⟨lits, b, hspells, hblanks⟩
    obtain ⟨ts, hscan, hderives⟩ := hspells.tokens (clear_of_spaces hblanks)
    rw [scan_eq_nil_iff.2 hblanks, List.append_nil] at hscan
    exact hscan ▸ hderives
  · intro h
    obtain ⟨b, lits, hspells, hscan⟩ := h.spelledBy ⟨⟨line, 1⟩, source.toList⟩ [] (List.append_nil _).symm
    exact ⟨lits, b, hspells, scan_eq_nil_iff.1 hscan⟩

theorem Derives.unique {ts : List Token} {e' : Expr} (h : Derives .sum ts e) (h' : Derives .sum ts e') :
    e' = e := by
  have hfound := h.found_expression (n := ts.length + 1) [] (by simp) trivial
  have hfound' := h'.found_expression (n := ts.length + 1) [] (by simp) trivial
  rw [hfound] at hfound'
  cases hfound'
  rfl

theorem Spelled.head?_errors (h : Spelled source line e lits) : e.errors.head? = firstError? lits := by
  obtain ⟨b, hspells, -⟩ := h
  exact hspells.head?_errors

/-- A source is read as the tree that it spells, if its numbers are all in range. -/
theorem parse_eq_ok_iff_spelled : parse source line = .ok e ↔
    ∃ lits, Spelled source line e lits ∧ ∀ lit ∈ lits, lit.InRange := by
  rw [parse_eq_ok_iff, ← exists_spelled_iff]
  constructor
  · rintro ⟨⟨lits, h⟩, hnil⟩
    refine ⟨lits, h, firstError?_eq_none_iff.1 ?_⟩
    rw [← h.head?_errors, hnil, List.head?_nil]
  · rintro ⟨lits, h, hrange⟩
    refine ⟨⟨lits, h⟩, List.head?_eq_none_iff.1 ?_⟩
    rw [h.head?_errors, firstError?_eq_none_iff.2 hrange]

/-- The first number that is out of range is the error of a source that is spelled otherwise. -/
theorem Spelled.parse_eq_error {lit : Literal} (h : Spelled source line e lits)
    (hlit : lits.find? (¬·.InRange) = some lit) : parse source line = .error lit.error := by
  have herrors := h.head?_errors
  rw [firstError?, hlit] at herrors
  rw [parse_of_derives (exists_spelled_iff.1 ⟨lits, h⟩)]
  cases herrors' : e.errors with
  | nil =>
      rw [herrors'] at herrors
      cases herrors
  | cons error errors =>
      rw [herrors'] at herrors
      cases herrors
      rfl

theorem inRange_below {k : Nat} {free : Prop} (h : List.Forall₂ (Literal.Below k free) lits lits')
    (hrange : ∀ lit ∈ lits, lit.InRange) : ∀ lit ∈ lits', lit.InRange := by
  induction h with
  | nil => exact List.forall_mem_nil _
  | cons hlit _ ih =>
      obtain ⟨hfirst, hrest⟩ := List.forall_mem_cons.1 hrange
      exact List.forall_mem_cons.2 ⟨hlit.inRange_iff.2 hfirst, ih hrest⟩

/-- On a later line a source spells the same tree there. -/
theorem Spelled.move (k : Nat) (h : Spelled source line e lits) :
    ∃ lits', Spelled source (line + k) (e.mapLines (· + k)) lits' ∧
      List.Forall₂ (Literal.Below k False) lits lits' := by
  obtain ⟨b, hspells, hblanks⟩ := h
  have hbelow : Cursor.Below k False ⟨⟨line, 1⟩, source.toList⟩ ⟨⟨line + k, 1⟩, source.toList⟩ :=
    ⟨⟨rfl, fun _ => rfl⟩, rfl⟩
  obtain ⟨b', lits', hspells, hb, hrel⟩ := hspells.move hbelow False.elim
  refine ⟨lits', ⟨b', hspells, ?_⟩, hrel⟩
  rwa [hb.ahead_eq]

/-- Reading accepts exactly the grammar of sources and builds the tree that a source spells, of which
there is only one. Numbers that are out of range keep a source from being read, and the leftmost of
them is the error. -/
theorem parse_exact (source : String) (line : Nat) :
    (∀ e, parse source line = .ok e ↔
      ∃ lits, Spelled source line e lits ∧ ∀ lit ∈ lits, lit.InRange) ∧
    (∀ k e e' lits lits', Spelled source line e lits → Spelled source (line + k) e' lits' →
      e' = e.mapLines (· + k)) ∧
    ∀ e lits, Spelled source line e lits → (∃ lit ∈ lits, ¬lit.InRange) →
      ∃ lit ∈ lits, ¬lit.InRange ∧
        (∀ lit' ∈ lits, ¬lit'.InRange → lit' = lit ∨ lit.start.Before lit'.start) ∧
        parse source line = .error lit.error := by
  refine ⟨fun e => parse_eq_ok_iff_spelled, fun k e e' lits lits' h h' => ?_, fun e lits h hout => ?_⟩
  · obtain ⟨moved, hmoved, -⟩ := h.move k
    exact (exists_spelled_iff.1 ⟨moved, hmoved⟩).unique (exists_spelled_iff.1 ⟨lits', h'⟩)
  · have hsome : lits.find? (¬·.InRange) ≠ none := by simpa using hout
    obtain ⟨lit, hlit⟩ := Option.ne_none_iff_exists'.1 hsome
    obtain ⟨b, hspells, -⟩ := id h
    exact ⟨lit, List.mem_of_find?_eq_some hlit, by simpa using List.find?_some hlit,
      leftmost_of_find? hlit hspells.ordered.pairwise, h.parse_eq_error hlit⟩

end Expr

end Variorum
