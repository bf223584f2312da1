import Variorum.Proofs.Expr.Floats
import Variorum.Proofs.Expr.Lines
import Variorum.Proofs.Expr.Literals
import Variorum.Proofs.Expr.Quoting
import Variorum.Proofs.Expr.SliceKey

/-!
# Printed expressions are read back

The printed form of a well-formed tree is an expression of the grammar with the same tree, on
whatever line it stands: parentheses are put where the grouping needs them, and no piece runs into
the next.
-/

namespace Variorum

open Token

namespace Expr

/-! ## Well-formed nodes -/

/-- A node that can be written as source: its names are words, and its literal has a source. -/
def Proper : Expr → Prop
  | .name _ identifier => isIdentifier identifier = true
  | .literal _ (.text s) => ∀ c ∈ s.toList, Text.Plain c
  | .literal _ (.integer i) => 0 ≤ i.toInt
  | .literal _ (.float x) => x.isFinite = true ∧ Binary64.isNegative x = false
  | .call _ callee _ => isIdentifier callee = true
  | .qualifiedCall _ moduleName callee _ =>
    isIdentifier moduleName = true ∧ isIdentifier callee = true
  | .slice _ selection => isIdentifier selection.parameter = true
  | .invalid _ => False
  | .binary .. | .negation .. | .cast .. => True

instance : (e : Expr) → Decidable e.Proper
  | .name _ identifier => inferInstanceAs (Decidable (isIdentifier identifier = true))
  | .literal _ (.text s) => List.decidableBAll Text.Plain s.toList
  | .literal _ (.integer i) => inferInstanceAs (Decidable (0 ≤ i.toInt))
  | .literal _ (.float x) =>
    inferInstanceAs (Decidable (x.isFinite = true ∧ Binary64.isNegative x = false))
  | .call _ callee _ => inferInstanceAs (Decidable (isIdentifier callee = true))
  | .qualifiedCall _ moduleName callee _ =>
    inferInstanceAs (Decidable (isIdentifier moduleName = true ∧ isIdentifier callee = true))
  | .slice _ selection => inferInstanceAs (Decidable (isIdentifier selection.parameter = true))
  | .invalid _ => inferInstanceAs (Decidable False)
  | .binary .. | .negation .. | .cast .. => inferInstanceAs (Decidable True)

/-- All nodes of an expression can be written as source. -/
def WellFormed (e : Expr) : Prop :=
  ∀ x ∈ e.nodes, x.Proper

instance (e : Expr) : Decidable e.WellFormed :=
  List.decidableBAll Proper e.nodes

/-- The floats of a well-formed tree are read back. -/
theorem WellFormed.readsBack {e : Expr} (h : e.WellFormed) :
    ∀ line x, .literal line (.float x) ∈ e.nodes → ReadsBack x := by
  intro line x hx
  obtain ⟨hfinite, hsign⟩ := h _ hx
  exact Expr.readsBack hfinite hsign

/-- The node can be written as source and, if it is a float, is read back. -/
def Printable (e : Expr) : Prop :=
  e.Proper ∧ ∀ line x, e = .literal line (.float x) → ReadsBack x

/-! ## Pieces of source -/

/-- Wherever the source stands, its tokens are an expression of the stratum, and its tree is the one
for that line. -/
def PrintsAs (l : Stratum) (s : String) (tree : Nat → Expr) : Prop :=
  ∀ p : Position, ∃ ts, Scans p s.toList ts ∧ Derives l ts (tree p.line)

/-- The same of the arguments of a call. -/
def PrintsAllAs (ss : List String) (trees : Nat → List Expr) : Prop :=
  ∀ p : Position, ∃ (ts : List Token) (parts : List (List Token × Expr)),
    Scans p (", ".intercalate ss).toList ts ∧ Separated (parts.map (·.1)) ts ∧
      (∀ part ∈ parts, Derives .sum part.1 part.2) ∧ parts.map (·.2) = trees p.line

variable {l m : Stratum} {s t : String} {tree left right : Nat → Expr} {p : Position}

theorem delimited_space {cs : List Char} : Delimited (' ' :: cs) :=
  delimited_cons rfl (by decide)

theorem delimited_close {cs : List Char} : Delimited (')' :: cs) :=
  delimited_cons rfl (by decide)

theorem rank_le_sum (l : Stratum) : l.rank ≤ Stratum.sum.rank := by
  cases l <;> decide

/-- What is printed as a tree without errors is read as that tree. -/
theorem PrintsAs.parse_eq_ok {line : Nat} (h : PrintsAs l s tree) (herrors : (tree line).errors = []) :
    parse s line = .ok (tree line) := by
  obtain ⟨ts, hscan, hderives⟩ := h ⟨line, 1⟩
  have hsum := hderives.mono (rank_le_sum l)
  rw [← hscan.scan] at hsum
  rw [parse_of_derives hsum, herrors]

theorem PrintsAs.mono (h : PrintsAs l s tree) (hle : l.rank ≤ m.rank) : PrintsAs m s tree := by
  intro p
  obtain ⟨ts, hscan, hderives⟩ := h p
  exact ⟨ts, hscan, hderives.mono hle⟩

theorem PrintsAs.inParens (h : PrintsAs l s tree) : PrintsAs .primary ("(" ++ s ++ ")") tree := by
  intro p
  obtain ⟨ts, hscan, hderives⟩ := h (p.next '(')
  have hsum := hderives.mono (rank_le_sum l)
  refine ⟨_, ?_, .parens p ((p.next '(').after s.toList) hsum⟩
  simp only [String.toList_append]
  exact .mark (by decide) (hscan.append (.mark (by decide) scans_nil) fun _ _ => delimited_close)

/-- What does not need parentheses is of the stratum that its place asks for. -/
theorem PrintsAs.parens {needed : Bool} (h : PrintsAs l s tree)
    (hle : needed = false → l.rank ≤ m.rank) : PrintsAs m (Expr.parens needed s) tree := by
  cases needed with
  | true => exact h.inParens.mono (Nat.zero_le _)
  | false => exact h.mono (hle rfl)

/-! ## Operators and casts -/

theorem scans_binary {c : Char} {ts us : List Token} (hc : IsMark c) (hs : Scans p s.toList ts)
    (ht : Scans ((((p.after s.toList).next ' ').next c).next ' ') t.toList us) :
    Scans p (s ++ " " ++ c.toString ++ " " ++ t).toList
      (ts ++ ⟨.symbol c, (p.after s.toList).next ' '⟩ :: us) := by
  have hsymbol : c.toString.toList = [c] := String.toList_singleton c
  simp only [String.toList_append, List.append_assoc, hsymbol]
  exact hs.append (.space (.mark hc (.space ht))) fun _ _ => delimited_space

/-- The place behind the operator is on the same line. -/
theorem line_behind {c : Char} {cs : List Char} (hc : IsMark c) (h : '\n' ∉ cs) :
    ((((p.after cs).next ' ').next c).next ' ').line = p.line := by
  have hnewline : '\n' ∉ cs ++ [' ', c, ' '] := by
    rw [List.mem_append]
    rintro (hmem | hmem)
    · exact h hmem
    · simp only [List.mem_cons, List.not_mem_nil, or_false] at hmem
      rcases hmem with hmem | rfl | hmem
      · cases hmem
      · exact absurd hc (by decide)
      · cases hmem
  have hline := line_after (p := p) hnewline
  rw [after_append] at hline
  exact hline

/-- Two printed operands with an operator between them, as far as the grammar joins them. -/
theorem PrintsAs.binary {op : BinaryOp} (hs : PrintsAs l s left) (ht : PrintsAs m t right)
    (hline : ∀ line, (left line).line = line)
    (hjoin : ∀ (ts us : List Token) (a b : Expr) (start : Position), Derives l ts a → Derives m us b →
      Derives l (ts ++ ⟨.symbol op.symbol, start⟩ :: us) (.binary a.line op a b)) :
    PrintsAs l (s ++ " " ++ op.symbol.toString ++ " " ++ t)
      fun line => .binary line op (left line) (right line) := by
  intro p
  obtain ⟨ts, hts, hleft⟩ := hs p
  obtain ⟨us, hus, hright⟩ := ht ((((p.after s.toList).next ' ').next op.symbol).next ' ')
  rw [line_behind (isMark_symbol op) hts.single_line] at hright
  have hderives := hjoin ts us _ _ ((p.after s.toList).next ' ') hleft hright
  rw [hline] at hderives
  exact ⟨_, scans_binary (isMark_symbol op) hts hus, hderives⟩

theorem PrintsAs.product {op : BinaryOp} (hop : op.isProduct = true) (hs : PrintsAs .product s left)
    (ht : PrintsAs .unary t right) (hline : ∀ line, (left line).line = line) :
    PrintsAs .product (s ++ " " ++ op.symbol.toString ++ " " ++ t)
      fun line => .binary line op (left line) (right line) := by
  have hsymbol := productOp?_eq_some_iff.2 ⟨rfl, hop⟩
  exact hs.binary ht hline fun _ _ _ _ start hl hr => .product start hl hsymbol hr

theorem PrintsAs.sum {op : BinaryOp} (hop : op.isProduct = false) (hs : PrintsAs .sum s left)
    (ht : PrintsAs .product t right) (hline : ∀ line, (left line).line = line) :
    PrintsAs .sum (s ++ " " ++ op.symbol.toString ++ " " ++ t)
      fun line => .binary line op (left line) (right line) := by
  have hsymbol := sumOp?_eq_some_iff.2 ⟨rfl, hop⟩
  exact hs.binary ht hline fun _ _ _ _ start hl hr => .sum start hl hsymbol hr

theorem PrintsAs.negation (h : PrintsAs .unary s tree) :
    PrintsAs .unary ("-" ++ s) fun line => .negation line (tree line) := by
  intro p
  obtain ⟨ts, hscan, hderives⟩ := h (p.next '-')
  refine ⟨_, ?_, .negation p hderives⟩
  rw [String.toList_append]
  exact .mark (by decide) hscan

theorem isWord_castKeyword : IsWord castKeyword.toList :=
  ⟨'a', ['s'], rfl, rfl, List.all_eq_true.1 rfl⟩

theorem isWord_keyword (type : CastType) : IsWord type.keyword.toList := by
  cases type with
  | int => exact ⟨'i', ['n', 't'], rfl, rfl, List.all_eq_true.1 rfl⟩
  | float => exact ⟨'f', ['l', 'o', 'a', 't'], rfl, rfl, List.all_eq_true.1 rfl⟩
  | str => exact ⟨'s', ['t', 'r'], rfl, rfl, List.all_eq_true.1 rfl⟩

theorem PrintsAs.cast {type : CastType} (h : PrintsAs .cast s tree)
    (hline : ∀ line, (tree line).line = line) :
    PrintsAs .cast (s ++ " as " ++ type.keyword) fun line => .cast line type (tree line) := by
  intro p
  obtain ⟨ts, hscan, hderives⟩ := h p
  have htype : CastType.ofKeyword? type.keyword = some type := by cases type <;> rfl
  have hcast := Derives.cast ((p.after s.toList).next ' ')
    ((((p.after s.toList).next ' ').after castKeyword.toList).next ' ') hderives htype
  rw [hline] at hcast
  refine ⟨_, ?_, hcast⟩
  have hkeyword := Scans.word (p := (p.after s.toList).next ' ') isWord_castKeyword rfl
    (.space (scans_word (isWord_keyword type)))
  rw [String.ofList_toList, String.ofList_toList] at hkeyword
  simp only [String.toList_append, List.append_assoc]
  exact hscan.append (.space hkeyword) fun _ _ => delimited_space

/-! ## Literals and names -/

theorem PrintsAs.name (h : isIdentifier s = true) : PrintsAs .primary s fun line => .name line s := by
  intro p
  obtain ⟨hword, hne⟩ := isIdentifier_iff.1 h
  have hscan := scans_word (p := p) hword
  rw [String.ofList_toList] at hscan
  exact ⟨_, hscan, .name _ hne⟩

theorem PrintsAs.text (h : ∀ c ∈ s.toList, Text.Plain c) :
    PrintsAs .primary (Text.quote s) fun line => .literal line (.text s) := by
  intro p
  have hderives := Derives.text '"' (s.toList.flatMap Text.escape) p
  rw [Text.unescape_flatMap_escape, Text.flatMap_reread_eq_self_iff.2 h, String.ofList_toList] at hderives
  exact ⟨_, scans_quote s p, hderives⟩

theorem PrintsAs.integer {i : Int64} (h : 0 ≤ i.toInt) :
    PrintsAs .primary (toString i.toInt) fun line => .literal line (.integer i) := by
  intro p
  have hread := Decimal.readInteger?_toString i
  have hderives := Derives.integer (toString i.toInt).toList p
  rw [ofInteger_inRange hread] at hderives
  refine ⟨_, scans_integer ?_, hderives⟩
  rw [Decimal.toList_toString, if_pos h]
  exact Decimal.isDigits_toDigits _

theorem PrintsAs.float {x : Float} (hfinite : x.isFinite = true) (h : ReadsBack x) :
    PrintsAs .primary (Value.float x).display fun line => .literal line (.float x) := by
  intro p
  obtain ⟨hnumeral, hread⟩ := h
  have hderives := Derives.float (Value.float x).display.toList p
  simp only [ofFloat, hread, if_pos hfinite] at hderives
  exact ⟨_, scans_float hnumeral, hderives⟩

/-! ## Calls -/

variable {ss : List String} {trees : Nat → List Expr}

theorem PrintsAllAs.nil : PrintsAllAs [] fun _ => [] := by
  intro p
  exact ⟨[], [], scans_nil, .nil, List.forall_mem_nil _, rfl⟩

theorem PrintsAllAs.single (h : PrintsAs .sum s tree) : PrintsAllAs [s] fun line => [tree line] := by
  intro p
  obtain ⟨ts, hscan, hderives⟩ := h p
  refine ⟨ts, [(ts, tree p.line)], ?_, .single, List.forall_mem_singleton.2 hderives, rfl⟩
  rw [String.intercalate_singleton]
  exact hscan

theorem PrintsAllAs.cons (h : PrintsAs .sum s tree) (hs : PrintsAllAs (t :: ss) trees)
    (hne : ∀ line, trees line ≠ []) : PrintsAllAs (s :: t :: ss) fun line => tree line :: trees line := by
  intro p
  obtain ⟨ts, hscan, hderives⟩ := h p
  obtain ⟨us, parts, hscans, hseparated, hparts, htrees⟩ := hs (((p.after s.toList).next ',').next ' ')
  have hline : (((p.after s.toList).next ',').next ' ').line = p.line :=
    line_after (p := p) hscan.single_line
  rw [hline] at htrees
  cases parts with
  | nil => exact absurd htrees.symm (hne p.line)
  | cons part parts =>
      refine ⟨_, (ts, tree p.line) :: part :: parts, ?_,
        .comma (p.after s.toList) hseparated, List.forall_mem_cons.2 ⟨hderives, hparts⟩, ?_⟩
      · rw [String.intercalate_cons_cons]
        simp only [String.toList_append, List.append_assoc]
        refine hscan.append (.mark (by decide) (.space hscans)) fun _ _ => ?_
        exact delimited_cons rfl (by decide)
      · rw [List.map_cons, htrees]

theorem scans_arguments {ts : List Token} (h : Scans (p.next '(') (", ".intercalate ss).toList ts) :
    Scans p ('(' :: ((", ".intercalate ss).toList ++ [')']))
      (⟨.symbol '(', p⟩ ::
        (ts ++ [⟨.symbol ')', (p.next '(').after (", ".intercalate ss).toList⟩])) :=
  .mark (by decide) (h.append (.mark (by decide) scans_nil) fun _ _ => delimited_close)

theorem PrintsAs.call (hcallee : isIdentifier s = true) (h : PrintsAllAs ss trees) :
    PrintsAs .primary (s ++ "(" ++ ", ".intercalate ss ++ ")") fun line => .call line s (trees line) := by
  intro p
  obtain ⟨hword, hne⟩ := isIdentifier_iff.1 hcallee
  obtain ⟨ts, parts, hscan, hseparated, hparts, htrees⟩ := h ((p.after s.toList).next '(')
  have hline : ((p.after s.toList).next '(').line = p.line := line_after hword.single_line
  rw [hline] at htrees
  have hderives := Derives.call p (p.after s.toList)
    (((p.after s.toList).next '(').after (", ".intercalate ss).toList) hne hseparated hparts
  rw [htrees] at hderives
  refine ⟨_, ?_, hderives⟩
  have hscans := Scans.word hword rfl (scans_arguments hscan)
  rw [String.ofList_toList] at hscans
  simp only [String.toList_append, List.append_assoc]
  exact hscans

theorem PrintsAs.qualifiedCall (hmodule : isIdentifier s = true) (hcallee : isIdentifier t = true)
    (h : PrintsAllAs ss trees) :
    PrintsAs .primary (s ++ "." ++ t ++ "(" ++ ", ".intercalate ss ++ ")")
      fun line => .qualifiedCall line s t (trees line) := by
  intro p
  obtain ⟨hword, hne⟩ := isIdentifier_iff.1 hmodule
  obtain ⟨hword', hne'⟩ := isIdentifier_iff.1 hcallee
  let next := (p.after s.toList).next '.'
  obtain ⟨ts, parts, hscan, hseparated, hparts, htrees⟩ := h ((next.after t.toList).next '(')
  have hline : ((next.after t.toList).next '(').line = p.line :=
    (line_after (p := next) hword'.single_line).trans (line_after (p := p) hword.single_line)
  rw [hline] at htrees
  have hderives := Derives.qualifiedCall p (p.after s.toList) next (next.after t.toList)
    (((next.after t.toList).next '(').after (", ".intercalate ss).toList) hne hne' hseparated hparts
  rw [htrees] at hderives
  refine ⟨_, ?_, hderives⟩
  have hscans := Scans.word hword rfl
    (.mark (by decide) (Scans.word hword' rfl (scans_arguments hscan)))
  rw [String.ofList_toList, String.ofList_toList] at hscans
  simp only [String.toList_append, List.append_assoc]
  exact hscans

/-! ## Slices -/

/-- A printed bound has the tokens of a bound, which has the printed value. -/
theorem scans_boundText (b : Option Int64) : ∃ ts bound,
    Scans p (SliceRef.boundText b).toList ts ∧ BoundTokens ts bound ∧ Bound.value? bound = .ok b := by
  cases b with
  | none => exact ⟨[], none, scans_nil, .absent, rfl⟩
  | some i =>
      have hread := Decimal.readInteger?_toString i
      rw [SliceRef.boundText]
      rw [Decimal.toList_toString] at hread ⊢
      split at hread
      · rename_i hi
        rw [if_pos hi]
        refine ⟨_, _, scans_integer (Decimal.isDigits_toDigits _), .digits _ _, ?_⟩
        simp only [Bound.value?, hread]
      · rename_i hi
        rw [if_neg hi]
        refine ⟨_, _, .mark (by decide) (scans_integer (Decimal.isDigits_toDigits _)), .negative _ _, ?_⟩
        simp only [Bound.value?, hread]

theorem PrintsAs.slice {selection : SliceRef} (h : isIdentifier selection.parameter = true) :
    PrintsAs .primary selection.key fun line => .slice line selection := by
  intro p
  obtain ⟨hword, hne⟩ := isIdentifier_iff.1 h
  let opened := p.after selection.parameter.toList
  let colon := (opened.next '[').after (SliceRef.boundText selection.start).toList
  let second := (colon.next ':').after (SliceRef.boundText selection.stop).toList
  obtain ⟨ts, first, hts, hfirst, hstart⟩ := scans_boundText (p := opened.next '[') selection.start
  obtain ⟨us, last, hus, hlast, hstop⟩ := scans_boundText (p := colon.next ':') selection.stop
  obtain ⟨vs, step, hvs, hstep, hvalue⟩ := scans_boundText (p := second.next ':') (some selection.step)
  have hderives := Derives.slice p opened colon
    ((second.next ':').after (SliceRef.boundText (some selection.step)).toList)
    hne hfirst hlast (.present second hstep)
  rw [ofBounds_ok hstart hstop hvalue] at hderives
  refine ⟨_, ?_, hderives⟩
  have hcolon : ∀ cs : List Char, Delimited (':' :: cs) := fun cs => delimited_cons rfl (by decide)
  have hclose : ∀ cs : List Char, Delimited (']' :: cs) := fun cs => delimited_cons rfl (by decide)
  have hlastColon := hvs.append (.mark (by decide) scans_nil) fun _ _ => hclose _
  have hfirstColon := hus.append (.mark (by decide) hlastColon) fun _ _ => hcolon _
  have hbrackets := hts.append (.mark (by decide) hfirstColon) fun _ _ => hcolon _
  have hscans := Scans.word (c := '[') hword rfl (.mark (by decide) hbrackets)
  rw [String.ofList_toList] at hscans
  rw [SliceRef.toList_key]
  exact hscans

/-! ## Trees -/

/-- The stratum of a printed tree. -/
def stratum : Expr → Stratum
  | .binary _ op _ _ => if op.isProduct then .product else .sum
  | .negation .. => .unary
  | .cast .. => .cast
  | _ => .primary

theorem level_stratum_binary {line : Nat} {op : BinaryOp} {left right : Expr} :
    (Expr.binary line op left right).stratum.level = (Operator.binary op).level := by
  cases op <;> rfl

theorem level_unary_le {e : Expr} (h : e.isBinary = false) : Stratum.unary.level ≤ e.stratum.level := by
  have hcast : Stratum.unary.level ≤ Stratum.cast.level := Nat.le_of_lt Operator.level_negation_lt
  cases e with
  | binary => cases h
  | negation => exact Nat.le_refl _
  | cast => exact hcast
  | _ => exact Nat.le_succ_of_le hcast

/-- What stands on the left of an operator without parentheses binds at least as tightly as it. -/
theorem level_left {op : BinaryOp} {e : Expr} (h : needsParens op false e = false) :
    (Operator.binary op).level ≤ e.stratum.level := by
  cases e with
  | binary _ inner =>
      refine Nat.not_lt.1 fun hlt => ?_
      rw [level_stratum_binary] at hlt
      rw [needsParens_binary.2 (.inl hlt)] at h
      cases h
  | _ => exact Nat.le_trans (Nat.le_of_lt (Operator.level_binary_lt op)) (level_unary_le rfl)

/-- What stands on the right of an operator without parentheses binds more tightly than it. -/
theorem level_right {op : BinaryOp} {e : Expr} (h : needsParens op true e = false) :
    (Operator.binary op).level < e.stratum.level := by
  cases e with
  | binary _ inner =>
      rw [level_stratum_binary]
      refine Nat.not_le.1 fun hle => ?_
      rw [needsParens_binary.2 ((Nat.lt_or_eq_of_le hle).imp_right fun heq => ⟨rfl, heq⟩)] at h
      cases h
  | _ => exact Nat.lt_of_lt_of_le (Operator.level_binary_lt op) (level_unary_le rfl)

theorem rank_cast {e : Expr} (h : e.isOperation = false) : e.stratum.rank ≤ Stratum.cast.rank := by
  cases e with
  | binary => cases h
  | negation => cases h
  | _ => simp [stratum, Stratum.rank]

mutual

/-- The printed form of a tree is an expression of its stratum with the same tree. -/
theorem printsAs : (e : Expr) → (∀ x ∈ e.nodes, x.Printable) →
    PrintsAs e.stratum e.print fun line => e.mapLines fun _ => line
  | .name _ _, h => by
      obtain ⟨⟨hproper, -⟩, -⟩ := List.forall_mem_cons.1 h
      exact PrintsAs.name hproper
  | .literal _ (.text _), h => by
      obtain ⟨⟨hproper, -⟩, -⟩ := List.forall_mem_cons.1 h
      exact PrintsAs.text hproper
  | .literal _ (.integer _), h => by
      obtain ⟨⟨hproper, -⟩, -⟩ := List.forall_mem_cons.1 h
      exact PrintsAs.integer hproper
  | .literal _ (.float _), h => by
      obtain ⟨⟨hproper, hread⟩, -⟩ := List.forall_mem_cons.1 h
      exact PrintsAs.float hproper.1 (hread _ _ rfl)
  | .binary _ op left right, h => by
      obtain ⟨-, hparts⟩ := List.forall_mem_cons.1 h
      obtain ⟨hleft, hright⟩ := List.forall_mem_append.1 hparts
      have hl := printsAs left hleft
      have hr := printsAs right hright
      have hline := fun line => line_mapLines (fun _ => line) left
      rw [stratum, print]
      cases hop : op.isProduct with
      | true =>
          have hlevel := level_product hop
          refine PrintsAs.product hop (hl.parens fun hneeded => ?_) (hr.parens fun hneeded => ?_) hline
          · have hle := level_left hneeded
            rw [hlevel] at hle
            exact rank_le_of_level_le hle
          · have hlt := level_right hneeded
            rw [hlevel] at hlt
            exact rank_le_of_level_le hlt
      | false =>
          refine PrintsAs.sum hop (hl.parens fun _ => rank_le_sum _) (hr.parens fun hneeded => ?_) hline
          have hlt := level_right hneeded
          rw [level_sum hop] at hlt
          exact rank_le_of_level_le hlt
  | .negation _ operand, h => by
      have hoperand := printsAs operand (List.forall_mem_cons.1 h).2
      exact PrintsAs.negation (hoperand.parens fun hneeded => rank_le_of_level_le (level_unary_le hneeded))
  | .cast _ _ operand, h => by
      have hoperand := printsAs operand (List.forall_mem_cons.1 h).2
      exact PrintsAs.cast (hoperand.parens rank_cast) fun line => line_mapLines (fun _ => line) operand
  | .call _ _ args, h => by
      obtain ⟨⟨hproper, -⟩, hargs⟩ := List.forall_mem_cons.1 h
      exact PrintsAs.call hproper (printsAllAs args hargs)
  | .qualifiedCall _ _ _ args, h => by
      obtain ⟨⟨hproper, -⟩, hargs⟩ := List.forall_mem_cons.1 h
      exact PrintsAs.qualifiedCall hproper.1 hproper.2 (printsAllAs args hargs)
  | .slice _ _, h => by
      obtain ⟨⟨hproper, -⟩, -⟩ := List.forall_mem_cons.1 h
      exact PrintsAs.slice hproper
  | .invalid _, h => by
      obtain ⟨⟨hproper, -⟩, -⟩ := List.forall_mem_cons.1 h
      cases hproper

theorem printsAllAs : (es : List Expr) → (∀ x ∈ nodesOfAll es, x.Printable) →
    PrintsAllAs (printAll es) fun line => mapLinesOfAll (fun _ => line) es
  | [], _ => PrintsAllAs.nil
  | [e], h => by
      have he := printsAs e (List.forall_mem_append.1 h).1
      exact PrintsAllAs.single (he.mono (rank_le_sum _))
  | e :: e' :: es, h => by
      obtain ⟨he, hes⟩ := List.forall_mem_append.1 h
      have hfirst := printsAs e he
      have hrest := printsAllAs (e' :: es) hes
      exact PrintsAllAs.cons (hfirst.mono (rank_le_sum _)) hrest fun _ => List.cons_ne_nil _ _

end

theorem errors_mapLines {f : Nat → Nat} {e : Expr} (h : e.WellFormed) : (e.mapLines f).errors = [] := by
  rw [errors, nodes_mapLines, List.filterMap_map, List.filterMap_eq_nil_iff]
  intro x hx
  have hproper := h x hx
  cases x with
  | invalid => cases hproper
  | _ => rfl

/-- A well-formed tree is read back from its printed form, on the line on which it is read, if each
of its floats is. -/
theorem parse_print {e : Expr} (h : e.WellFormed)
    (hfloats : ∀ line x, .literal line (.float x) ∈ e.nodes → ReadsBack x) (line : Nat) :
    parse e.print line = .ok (e.mapLines fun _ => line) := by
  have hprintable : ∀ x ∈ e.nodes, x.Printable := by
    intro x hx
    refine ⟨h x hx, fun line v he => hfloats line v ?_⟩
    rw [← he]
    exact hx
  obtain ⟨ts, hscan, hderives⟩ := printsAs e hprintable ⟨line, 1⟩
  have hsum := hderives.mono (rank_le_sum e.stratum)
  rw [← hscan.scan] at hsum
  rw [parse_of_derives hsum, errors_mapLines h]

/-- A tree with both kinds of parentheses and a literal of each kind, on several lines. -/
def scatteredTree : Expr :=
  .cast 1 .int (.binary 1 .mul
    (.binary 1 .add (.name 1 "a") (.literal 2 (.integer 2)))
    (.negation 2 (.call 3 "f" [.literal 3 (.text "q\n"), .slice 4 ⟨"x", some 1, none, -2⟩,
      .literal 4 (.float 0.1)])))

theorem parse_print_scatteredTree :
    scatteredTree.WellFormed ∧
      (∀ line x, .literal line (.float x) ∈ scatteredTree.nodes → ReadsBack x) ∧
      .literal 4 (.float 0.1) ∈ scatteredTree.nodes ∧
      scatteredTree.print = "((a + 2) * -f(\"q\\n\", x[1::-2], 0.1)) as int" ∧
      parse scatteredTree.print 7 = .ok (scatteredTree.mapLines fun _ => 7) := by
  have hwf : scatteredTree.WellFormed := by decide +kernel
  have hmem : .literal 4 (.float 0.1) ∈ scatteredTree.nodes := by simp [scatteredTree, nodes, nodesOfAll]
  exact ⟨hwf, hwf.readsBack, hmem, by decide +kernel, parse_print hwf hwf.readsBack 7⟩

end Expr

end Variorum
