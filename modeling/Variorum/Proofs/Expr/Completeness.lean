import Variorum.Proofs.Expr.Grouping

/-!
# Every expression is read

The reader finds the tree of every token list of the grammar. What it finds depends only on the first
token behind the expression, which must not be one that the expression could go on with.
-/

namespace Variorum.Expr

open Reading

/-- Nothing follows, or what ends an expression in brackets does. -/
def AtEnd : List Token → Prop
  | [] => True
  | t :: _ => t.lexeme = .symbol ')' ∨ t.lexeme = .symbol ','

/-- Nothing follows that would make more of a name. -/
def Detached (ts : List Token) : Prop :=
  ∀ c ∈ ['.', '(', '['], (symbol c ts).found = none

variable {e : Expr} {ts us vs rest : List Token} {xs : List Item} {c : Char} {start : Position}
  {inner : Reading Expr} {n k : Nat}

theorem isSymbol_iff {t : Token} : t.isSymbol c = true ↔ t.lexeme = .symbol c := by
  simp [Token.isSymbol]

theorem detached_cons {t : Token} (h : ∀ c ∈ ['.', '(', '['], t.lexeme ≠ .symbol c) : Detached (t :: ts) := by
  intro c hc
  rw [found_symbol_cons, if_neg]
  exact fun ht => h c hc (isSymbol_iff.1 ht)

theorem AtEnd.detached (h : AtEnd rest) : Detached rest := by
  cases rest with
  | nil => exact fun _ _ => rfl
  | cons t ts =>
      rcases h with h | h
      · exact detached_cons (by simp [h])
      · exact detached_cons (by simp [h])

/-- Items that go on behind an operand make no more of a name in front of them. -/
theorem Flat.detached (h : Flat .operator us xs) (hrest : AtEnd rest) : Detached (us ++ rest) := by
  cases h with
  | nil => exact hrest.detached
  | cast => exact detached_cons fun c _ h => nomatch h
  | binary _ hop =>
      refine detached_cons fun c hc h => ?_
      cases h
      have hnone : ∀ c ∈ ['.', '(', '['], binaryOp? c = none := by simp [binaryOp?]
      rw [hnone _ hc] at hop
      cases hop

/-! ## Slices -/

theorem found_bound {b : Option Bound} (h : BoundTokens ts b) (hc : c = ':' ∨ c = ']') :
    (optional bound (ts ++ ⟨.symbol c, start⟩ :: rest)).found =
      some (b, ⟨.symbol c, start⟩ :: rest) := by
  cases h with
  | absent => rcases hc with rfl | rfl <;> cases rest <;> rfl
  | digits => rfl
  | negative => simp [bound]

theorem found_step {b : Option Bound} (h : StepTokens ts b) (start : Position) (rest : List Token) :
    ((optional (do symbol ':'; optional bound) : Reading (Option (Option Bound)))
        (ts ++ ⟨.symbol ']', start⟩ :: rest)).found.map (fun r => (r.1.join, r.2)) =
      some (b, ⟨.symbol ']', start⟩ :: rest) := by
  cases h with
  | absent => simp [isSymbol_iff]
  | present _ h =>
      rw [found_optional, found_bind, List.cons_append, found_symbol_cons, if_pos (isSymbol_iff.2 rfl),
        Option.bind_some, found_bound h (.inr rfl)]
      rfl

theorem found_sliceTail {line : Nat} {parameter : String} {first last step : Option Bound}
    {opened colon closed : Position} (hfirst : BoundTokens ts first) (hlast : BoundTokens us last)
    (hstep : StepTokens vs step) :
    (sliceTail line parameter (⟨.symbol '[', opened⟩ ::
      (ts ++ ⟨.symbol ':', colon⟩ :: (us ++ (vs ++ ⟨.symbol ']', closed⟩ :: rest))))).found =
      some (ofBounds line parameter first last step, rest) := by
  have hrest : ∃ c start tail, (c = ':' ∨ c = ']') ∧
      vs ++ ⟨.symbol ']', closed⟩ :: rest = ⟨.symbol c, start⟩ :: tail := by
    cases hstep with
    | absent => exact ⟨_, _, _, .inr rfl, rfl⟩
    | present => exact ⟨_, _, _, .inl rfl, rfl⟩
  obtain ⟨c, start, tail, hc, htail⟩ := hrest
  obtain ⟨r, hr, hjoin⟩ := Option.map_eq_some_iff.1 (found_step hstep closed rest)
  obtain ⟨hjoin, hleft⟩ := Prod.mk.inj hjoin
  rw [sliceTail, found_bind, found_symbol_cons, if_pos (isSymbol_iff.2 rfl), Option.bind_some,
    found_bind, found_bound hfirst (.inl rfl), Option.bind_some, found_bind, found_symbol_cons,
    if_pos (isSymbol_iff.2 rfl), Option.bind_some, found_bind, htail, found_bound hlast hc,
    Option.bind_some, ← htail, found_bind, hr, Option.bind_some, found_bind, hleft,
    found_symbol_cons, if_pos (isSymbol_iff.2 rfl), Option.bind_some, hjoin, found_pure]

/-! ## Arguments -/

theorem found_expression_close : (expression n (⟨.symbol ')', start⟩ :: rest)).found = none := by
  cases n with
  | zero => rfl
  | succ n => simp [expression, items, operand, primary]

theorem found_moreArgs_close : (moreArgs inner n (⟨.symbol ')', start⟩ :: rest)).found =
    some ([], ⟨.symbol ')', start⟩ :: rest) := by
  cases n with
  | zero => rfl
  | succ n => simp [moreArgs, isSymbol_iff]

/-- The reading finds an expression wherever an argument can end. -/
def ReadsArgument (inner : Reading Expr) (n : Nat) (part : List Token × Expr) : Prop :=
  ∀ rest, part.1.length + rest.length < n → AtEnd rest →
    (inner (part.1 ++ rest)).found = some (part.2, rest)

/-- Each comma takes a token, so that `k` further arguments are enough. -/
theorem found_argumentList {k : Nat} {part : List Token × Expr} {parts : List (List Token × Expr)}
    (h : Separated (part.1 :: parts.map (·.1)) ts)
    (hinner : ∀ p ∈ part :: parts, ReadsArgument inner n p) (hk : ts.length ≤ k)
    (hn : ts.length + rest.length + 1 < n) :
    ((do let e ← inner; let es ← moreArgs inner k; return e :: es : Reading (List Expr))
        (ts ++ ⟨.symbol ')', start⟩ :: rest)).found =
      some (part.2 :: parts.map (·.2), ⟨.symbol ')', start⟩ :: rest) := by
  induction parts generalizing part ts k with
  | nil =>
      cases h
      have hread := hinner part (by simp) (⟨.symbol ')', start⟩ :: rest)
        (by simp only [List.length_cons]; omega) (.inl rfl)
      rw [found_bind, hread, Option.bind_some, found_bind, found_moreArgs_close]
      rfl
  | cons next parts ih =>
      cases h with
      | @comma _ _ _ vs comma h =>
          simp only [List.length_append, List.length_cons] at hk hn
          obtain ⟨k, rfl⟩ : ∃ j, k = j + 1 := ⟨k - 1, by omega⟩
          have hread := hinner part (by simp)
            (⟨.symbol ',', comma⟩ :: (vs ++ ⟨.symbol ')', start⟩ :: rest))
            (by simp only [List.length_cons, List.length_append]; omega) (.inr rfl)
          have hrest := ih h (fun p hp => hinner p (List.mem_cons_of_mem _ hp)) (k := k)
            (by omega) (by omega)
          rw [List.append_assoc, List.cons_append, found_bind, hread, Option.bind_some, found_bind,
            moreArgs, found_or, found_bind, found_symbol_cons, if_pos (isSymbol_iff.2 rfl),
            Option.bind_some, hrest]
          rfl

theorem found_arguments {parts : List (List Token × Expr)} (opened closed : Position)
    (rest : List Token) (h : Separated (parts.map (·.1)) ts)
    (hinner : ∀ part ∈ parts, ReadsArgument (expression n) n part)
    (hn : ts.length + rest.length + 1 < n) :
    (arguments (expression n) n
        (⟨.symbol '(', opened⟩ :: (ts ++ ⟨.symbol ')', closed⟩ :: rest))).found =
      some (parts.map (·.2), rest) := by
  rw [arguments, found_bind, found_symbol_cons, if_pos (isSymbol_iff.2 rfl), Option.bind_some,
    found_bind, found_optional]
  cases parts with
  | nil =>
      cases h
      rw [List.nil_append, found_bind, found_expression_close]
      simp [isSymbol_iff]
  | cons part parts =>
      rw [found_argumentList h hinner (by omega) hn]
      simp [isSymbol_iff]

/-! ## Primaries -/

section

variable {line : Nat} {word : String}

theorem found_named_name (h : Detached rest) :
    (named inner n line word rest).found = some (.name line word, rest) := by
  have hdot := h '.' (by simp)
  have hopen := h '(' (by simp)
  have hbracket := h '[' (by simp)
  simp only [named, arguments, sliceTail, found_or, found_bind, hdot, hopen, hbracket,
    Option.bind_none, Option.none_or, found_done]

theorem found_named_call {args : List Expr}
    (h : (arguments inner n (⟨.symbol '(', start⟩ :: us)).found = some (args, rest)) :
    (named inner n line word (⟨.symbol '(', start⟩ :: us)).found =
      some (.call line word args, rest) := by
  simp [named, h, isSymbol_iff]

theorem found_named_qualifiedCall {callee : String} {args : List Expr} {dot next : Position}
    (hcallee : callee ≠ castKeyword) (h : (arguments inner n us).found = some (args, rest)) :
    (named inner n line word (⟨.symbol '.', dot⟩ :: ⟨.word callee, next⟩ :: us)).found =
      some (.qualifiedCall line word callee args, rest) := by
  simp [named, h, isSymbol_iff, identifier, hcallee]

theorem found_named_slice
    (h : (sliceTail line word (⟨.symbol '[', start⟩ :: us)).found = some (e, rest)) :
    (named inner n line word (⟨.symbol '[', start⟩ :: us)).found = some (e, rest) := by
  simp [named, h, isSymbol_iff, arguments]

theorem found_primary_word (h : word ≠ castKeyword) :
    (primary inner n (⟨.word word, start⟩ :: ts)).found =
      (named inner n start.line word ts).found := by
  rw [primary, if_neg h]

end

theorem found_primary (hinner : ∀ part, Derives .sum part.1 part.2 → ReadsArgument (expression n) n part)
    (h : Derives .primary ts e) (hn : ts.length + rest.length ≤ n) (hrest : Detached rest) :
    (primary (expression n) n (ts ++ rest)).found = some (e, rest) := by
  cases h with
  | name _ hword => rw [List.singleton_append, found_primary_word hword, found_named_name hrest]
  | integer => rfl
  | float => rfl
  | text => rfl
  | call _ opened closed hword hsep hparts =>
      simp only [List.length_cons, List.length_append, List.length_nil] at hn
      have hargs := found_arguments (n := n) opened closed rest hsep
        (fun part hpart => hinner part (hparts part hpart)) (by omega)
      simp only [List.cons_append, List.append_assoc, List.nil_append]
      rw [found_primary_word hword, found_named_call hargs]
  | qualifiedCall _ _ _ opened closed hmodule hcallee hsep hparts =>
      simp only [List.length_cons, List.length_append, List.length_nil] at hn
      have hargs := found_arguments (n := n) opened closed rest hsep
        (fun part hpart => hinner part (hparts part hpart)) (by omega)
      simp only [List.cons_append, List.append_assoc, List.nil_append]
      rw [found_primary_word hmodule, found_named_qualifiedCall hcallee hargs]
  | slice _ _ _ _ hword hfirst hlast hstep =>
      simp only [List.cons_append, List.append_assoc, List.nil_append]
      rw [found_primary_word hword, found_named_slice (found_sliceTail hfirst hlast hstep)]
  | parens _ closed h =>
      simp only [List.length_cons, List.length_append, List.length_nil] at hn
      have hread := hinner (_, e) h (⟨.symbol ')', closed⟩ :: rest)
        (by simp only [List.length_cons]; omega) (.inl rfl)
      simp only [List.cons_append, List.append_assoc, List.nil_append]
      rw [primary, found_bind, hread, Option.bind_some, found_bind, found_symbol_cons,
        if_pos (isSymbol_iff.2 rfl)]
      rfl

/-! ## Items -/

/-- What is read behind a primary: its casts, and what is joined to it. -/
def behind (more : Reading (List Item)) : Reading (List Item) := do
  return (← casts) ++ (← joined more)

section

variable {more : Reading (List Item)}

theorem found_behind_end (h : AtEnd rest) : (behind more rest).found = some ([], rest) := by
  have hcasts : (casts rest).found = some ([], rest) := by
    cases rest with
    | nil => rfl
    | cons t ts =>
        obtain ⟨lexeme, start⟩ := t
        rcases h with rfl | rfl <;> rfl
  have hoperator : (operator rest).found = none := by
    cases rest with
    | nil => rfl
    | cons t ts =>
        obtain ⟨lexeme, start⟩ := t
        rcases h with rfl | rfl <;> rfl
  simp [behind, joined, hcasts, hoperator]

theorem found_behind_cast {word : String} {type : CastType} {next : Position}
    (htype : CastType.ofKeyword? word = some type) :
    (behind more (⟨.word castKeyword, start⟩ :: ⟨.word word, next⟩ :: ts)).found =
      (behind more ts).found.map fun r => (.cast type :: r.1, r.2) := by
  have hcasts : (casts (⟨.word castKeyword, start⟩ :: ⟨.word word, next⟩ :: ts)).found =
      (casts ts).found.map fun r => (.cast type :: r.1, r.2) := by
    rw [casts, if_pos rfl, htype, found_map]
  rw [behind, found_bind, found_bind, hcasts]
  cases (casts ts).found with
  | none => rfl
  | some r => cases hmore : (joined more r.2).found <;> simp [hmore]

theorem found_behind_binary {op : BinaryOp} (hop : binaryOp? c = some op)
    (h : (more ts).found = some (xs, rest)) :
    (behind more (⟨.symbol c, start⟩ :: ts)).found = some (.binary op :: xs, rest) := by
  have hoperator : (operator (⟨.symbol c, start⟩ :: ts)).found = some (op, ts) := by
    simp only [operator, hop, found_done]
  have hcasts : (casts (⟨.symbol c, start⟩ :: ts)).found = some ([], ⟨.symbol c, start⟩ :: ts) := rfl
  simp [behind, joined, hcasts, hoperator, h]

theorem found_items_negation : (items (operand inner n) (k + 1) (⟨.symbol '-', start⟩ :: ts)).found =
    (items (operand inner n) (k + 1) ts).found.map fun r => (.negation start.line :: r.1, r.2) := by
  have hoperand : (operand inner n (⟨.symbol '-', start⟩ :: ts)).found =
      (operand inner n ts).found.map fun r => (.negation start.line :: r.1, r.2) := by
    rw [operand, found_map]
  rw [items, found_bind, found_bind, hoperand]
  cases (operand inner n ts).found with
  | none => rfl
  | some r => cases hmore : (joined (items (operand inner n) k) r.2).found <;> simp [hmore]

theorem found_items_operand {t : Token} (ht : t.lexeme ≠ .symbol '-')
    (hprimary : (primary inner n (t :: ts)).found = some (e, us)) :
    (items (operand inner n) (k + 1) (t :: ts)).found =
      (behind (items (operand inner n) k) us).found.map fun r => (.operand e :: r.1, r.2) := by
  have hoperand : (operand inner n (t :: ts)).found =
      (casts us).found.map fun r => (.operand e :: r.1, r.2) := by
    unfold operand
    split
    · rename_i he
      cases he
      exact absurd rfl ht
    · rw [found_bind, hprimary, Option.bind_some, found_bind]
      cases (casts us).found <;> rfl
  rw [items, behind, found_bind, found_bind, hoperand]
  cases (casts us).found with
  | none => rfl
  | some r => cases hmore : (joined (items (operand inner n) k) r.2).found <;> simp [hmore]

end

theorem Derives.exists_cons (h : Derives .primary ts e) :
    ∃ t us, ts = t :: us ∧ t.lexeme ≠ .symbol '-' := by
  cases h with
  | parens => exact ⟨_, _, rfl, fun h => absurd (Lexeme.symbol.inj h) (by decide)⟩
  | _ => exact ⟨_, _, rfl, nofun⟩

/-- The items are read up to where an expression can end. -/
def ReadsItems (n : Nat) : Turn → List Token → List Item → Prop
  | .operand, ts, xs => ∀ k rest, ts.length ≤ k → ts.length + rest.length ≤ n → AtEnd rest →
      (items (operand (expression n) n) (k + 1) (ts ++ rest)).found = some (xs, rest)
  | .operator, ts, xs => ∀ k rest, ts.length ≤ k → ts.length + rest.length ≤ n → AtEnd rest →
      (behind (items (operand (expression n) n) k) (ts ++ rest)).found = some (xs, rest)

/-- The induction is on the items, which are read one by one from the left. -/
theorem Flat.readsItems (hinner : ∀ part, Derives .sum part.1 part.2 → ReadsArgument (expression n) n part)
    {turn : Turn} (h : Flat turn ts xs) : ReadsItems n turn ts xs := by
  induction h with
  | nil =>
      intro k rest _ _ hrest
      exact found_behind_end hrest
  | negation start _ ih =>
      intro k rest hk hn hrest
      simp only [List.length_cons] at hk hn
      rw [List.cons_append, found_items_negation, ih k rest (by omega) (by omega) hrest]
      rfl
  | operand hprimary hflat ih =>
      intro k rest hk hn hrest
      simp only [List.length_append] at hk hn
      have hfound := found_primary hinner hprimary (by rw [List.length_append]; omega) (hflat.detached hrest)
      obtain ⟨t, ts, rfl, ht⟩ := hprimary.exists_cons
      rw [List.cons_append] at hfound
      rw [List.append_assoc, List.cons_append, found_items_operand ht hfound,
        ih k rest (by omega) (by omega) hrest]
      rfl
  | cast start next htype _ ih =>
      intro k rest hk hn hrest
      simp only [List.length_cons] at hk hn
      rw [List.cons_append, List.cons_append, found_behind_cast htype, ih k rest (by omega) (by omega) hrest]
      rfl
  | binary start hop _ ih =>
      intro k rest hk hn hrest
      simp only [List.length_cons] at hk hn
      obtain ⟨k, rfl⟩ : ∃ j, k = j + 1 := ⟨k - 1, by omega⟩
      exact found_behind_binary hop (ih k rest (by omega) (by omega) hrest)

/-! ## Expressions -/

/-- The induction is on the bound of the nesting: what stands in parentheses and between commas is
read within a smaller one. -/
theorem Derives.found_expression (h : Derives .sum ts e) : ReadsArgument (expression n) n (ts, e) := by
  induction n generalizing ts e with
  | zero =>
      intro rest hlen
      cases hlen
  | succ n ih =>
      intro rest hlen hrest
      simp only at hlen
      obtain ⟨xs, hflat, htree⟩ := derives_sum_iff.1 h
      have hitems := hflat.readsItems (fun _ hpart => ih hpart) n rest (by omega) (by omega) hrest
      rw [expression, found_bind, hitems, Option.bind_some]
      simp only [htree, found_done]

/-- A source whose tokens are an expression is read as that expression, unless it has a literal out of
range; then the error is that of the first one. -/
theorem parse_of_derives {source : String} {line : Nat}
    (h : Derives .sum (Token.scan ⟨line, 1⟩ source.toList) e) :
    parse source line =
      match e.errors with
      | [] => .ok e
      | error :: _ => .error error := by
  have hfound := h.found_expression
    (n := (Token.scan ⟨line, 1⟩ source.toList).length + 1) [] (by simp) trivial
  rw [List.append_nil] at hfound
  unfold parse
  dsimp only
  generalize expression _ (Token.scan ⟨line, 1⟩ source.toList) = attempt at hfound ⊢
  obtain ⟨found, miss⟩ := attempt
  cases hfound
  rfl

end Variorum.Expr
