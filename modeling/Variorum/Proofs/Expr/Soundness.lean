import Variorum.Proofs.Expr.Completeness

/-!
# Only expressions are read

Whatever a reading finds, it has taken from the front tokens of the grammar with the tree that it
found.
-/

namespace Variorum.Expr

open Reading

/-- What the reading finds, it finds in tokens of the given kind, which it takes from the front. -/
def Finds {α : Type} (p : Reading α) (P : List Token → α → Prop) : Prop :=
  ∀ ts a rest, (p ts).found = some (a, rest) → ∃ us, ts = us ++ rest ∧ P us a

section

variable {α β : Type} {p q : Reading α} {f : α → Reading β} {P Q : List Token → α → Prop}
  {R : α → List Token → β → Prop}

theorem Finds.mono (h : Finds p P) (hPQ : ∀ us a, P us a → Q us a) : Finds p Q := by
  intro ts a rest hfound
  obtain ⟨us, hus, hP⟩ := h ts a rest hfound
  exact ⟨us, hus, hPQ us a hP⟩

theorem finds_done (a : α) : Finds (done a) fun us b => us = [] ∧ b = a := by
  intro ts b rest hfound
  cases hfound
  exact ⟨[], rfl, rfl, rfl⟩

theorem Finds.bind (hp : Finds p P) (hf : ∀ a, Finds (f a) (R a)) :
    Finds (p >>= f) fun us b => ∃ vs ws a, us = vs ++ ws ∧ P vs a ∧ R a ws b := by
  intro ts b rest hfound
  rw [found_bind, Option.bind_eq_some_iff] at hfound
  obtain ⟨⟨a, rest'⟩, hpfound, hffound⟩ := hfound
  obtain ⟨vs, rfl, hP⟩ := hp ts a rest' hpfound
  obtain ⟨ws, rfl, hR⟩ := hf a rest' b rest hffound
  exact ⟨vs ++ ws, (List.append_assoc ..).symm, vs, ws, a, rfl, hP, hR⟩

theorem Finds.or (hp : Finds p P) (hq : Finds q P) : Finds (p.or q) P := by
  intro ts a rest hfound
  rw [found_or, Option.or_eq_some_iff] at hfound
  rcases hfound with hfound | ⟨-, hfound⟩
  · exact hp ts a rest hfound
  · exact hq ts a rest hfound

theorem Finds.optional (h : Finds p P) :
    Finds (optional p) fun us o => (us = [] ∧ o = none) ∨ ∃ a, o = some a ∧ P us a := by
  intro ts o rest hfound
  rw [found_optional] at hfound
  cases hp : (p ts).found with
  | none =>
      rw [hp] at hfound
      cases hfound
      exact ⟨[], rfl, .inl ⟨rfl, rfl⟩⟩
  | some r =>
      rw [hp] at hfound
      cases hfound
      obtain ⟨us, hus, hP⟩ := h ts r.1 r.2 hp
      exact ⟨us, hus, .inr ⟨r.1, rfl, hP⟩⟩

theorem finds_symbol (c : Char) : Finds (symbol c) fun us _ => ∃ start, us = [⟨.symbol c, start⟩] := by
  intro ts a rest hfound
  cases ts with
  | nil => cases hfound
  | cons t ts =>
      rw [found_symbol_cons] at hfound
      split at hfound
      · rename_i ht
        cases hfound
        obtain ⟨lexeme, start⟩ := t
        cases isSymbol_iff.1 ht
        exact ⟨_, rfl, start, rfl⟩
      · cases hfound

theorem finds_identifier : Finds identifier fun us s =>
    s ≠ castKeyword ∧ ∃ start, us = [⟨.word s, start⟩] := by
  intro ts s rest hfound
  unfold identifier at hfound
  split at hfound
  · split at hfound
    · cases hfound
    · rename_i hs
      cases hfound
      exact ⟨_, rfl, hs, _, rfl⟩
  · cases hfound

end

variable {e : Expr} {inner : Reading Expr} {n : Nat}

/-! ## Slices -/

theorem finds_bound : Finds bound fun us b => BoundTokens us (some b) := by
  intro ts b rest hfound
  unfold bound at hfound
  split at hfound
  · cases hfound
    exact ⟨_, rfl, .digits _ _⟩
  · cases hfound
  · split at hfound
    · rename_i hnext
      split at hfound
      · cases hfound
        rw [hnext]
        exact ⟨[_, _], rfl, .negative _ _⟩
      · cases hfound
      · cases hfound
    · cases hfound
  · cases hfound

theorem finds_optional_bound : Finds (optional bound) BoundTokens := by
  refine finds_bound.optional.mono ?_
  rintro us o (⟨rfl, rfl⟩ | ⟨b, rfl, hb⟩)
  · exact .absent
  · exact hb

theorem finds_step : Finds (optional (do symbol ':'; optional bound))
    fun us (o : Option (Option Bound)) => StepTokens us o.join := by
  have hstep := (finds_symbol ':').bind fun _ => finds_optional_bound
  refine hstep.optional.mono ?_
  rintro us o (⟨rfl, rfl⟩ | ⟨b, rfl, _, vs, -, rfl, ⟨start, rfl⟩, hb⟩)
  · exact .absent
  · exact .present start hb

theorem finds_sliceTail {line : Nat} {parameter : String} : Finds (sliceTail line parameter)
    fun us e => ∃ ts vs ws first last step opened colon closed,
      BoundTokens ts first ∧ BoundTokens vs last ∧ StepTokens ws step ∧
        us = ⟨.symbol '[', opened⟩ ::
          (ts ++ ⟨.symbol ':', colon⟩ :: (vs ++ (ws ++ [⟨.symbol ']', closed⟩]))) ∧
        e = ofBounds line parameter first last step := by
  have hparts := (finds_symbol '[').bind fun _ => finds_optional_bound.bind fun first =>
    (finds_symbol ':').bind fun _ => finds_optional_bound.bind fun last =>
    finds_step.bind fun step => (finds_symbol ']').bind fun _ =>
    finds_done (ofBounds line parameter first last step.join)
  refine hparts.mono ?_
  rintro us e ⟨_, _, -, rfl, ⟨opened, rfl⟩, ts, _, first, rfl, hfirst, _, _, -, rfl, ⟨colon, rfl⟩,
    vs, _, last, rfl, hlast, ws, _, step, rfl, hstep, _, _, -, rfl, ⟨closed, rfl⟩, rfl, rfl⟩
  exact ⟨ts, vs, ws, first, last, step.join, opened, colon, closed, hfirst, hlast, hstep, rfl, rfl⟩

/-! ## Arguments -/

/-- The parts that stand behind commas, in tokens that go on from any part before them. -/
theorem finds_moreArgs (hinner : Finds inner (Derives .sum)) (n : Nat) : Finds (moreArgs inner n)
    fun us es => ∃ parts : List (List Token × Expr), parts.map (·.2) = es ∧
      (∀ part ∈ parts, Derives .sum part.1 part.2) ∧
      ∀ ts, Separated (ts :: parts.map (·.1)) (ts ++ us) := by
  have hnone : Finds (done [])
      fun us (es : List Expr) => ∃ parts : List (List Token × Expr), parts.map (·.2) = es ∧
        (∀ part ∈ parts, Derives .sum part.1 part.2) ∧
        ∀ ts, Separated (ts :: parts.map (·.1)) (ts ++ us) := by
    refine (finds_done []).mono ?_
    rintro us es ⟨rfl, rfl⟩
    refine ⟨[], rfl, List.forall_mem_nil _, fun ts => ?_⟩
    rw [List.append_nil]
    exact .single
  induction n with
  | zero => exact hnone
  | succ n ih =>
      have hsome := (finds_symbol ',').bind fun _ => hinner.bind fun e => ih.bind fun es =>
        finds_done (e :: es)
      refine (hsome.mono ?_).or hnone
      rintro us es ⟨_, _, -, rfl, ⟨comma, rfl⟩, vs, _, e, rfl, he, ws, _, es, rfl,
        ⟨parts, rfl, hparts, hseparated⟩, rfl, rfl⟩
      refine ⟨(vs, e) :: parts, rfl, List.forall_mem_cons.2 ⟨he, hparts⟩, fun ts => ?_⟩
      rw [List.append_nil]
      exact .comma comma (hseparated vs)

theorem finds_arguments (hinner : Finds inner (Derives .sum)) : Finds (arguments inner n)
    fun us es => ∃ (parts : List (List Token × Expr)) (ts : List Token) (opened closed : Position),
      parts.map (·.2) = es ∧ (∀ part ∈ parts, Derives .sum part.1 part.2) ∧
        Separated (parts.map (·.1)) ts ∧
        us = ⟨.symbol '(', opened⟩ :: (ts ++ [⟨.symbol ')', closed⟩]) := by
  have hargs := hinner.bind fun e => (finds_moreArgs hinner n).bind fun es => finds_done (e :: es)
  have hparts := (finds_symbol '(').bind fun _ => hargs.optional.bind fun args =>
    (finds_symbol ')').bind fun _ => finds_done (args.getD [])
  refine hparts.mono ?_
  rintro us es ⟨_, _, -, rfl, ⟨opened, rfl⟩, ts, _, args, rfl, hargs, _, _, -, rfl, ⟨closed, rfl⟩,
    rfl, rfl⟩
  rcases hargs with ⟨rfl, rfl⟩ | ⟨args, rfl, vs, _, e, rfl, he, ws, _, es, rfl,
    ⟨parts, rfl, hparts, hseparated⟩, rfl, rfl⟩
  · exact ⟨[], [], opened, closed, rfl, List.forall_mem_nil _, .nil, rfl⟩
  · refine ⟨(vs, e) :: parts, _, opened, closed, rfl, List.forall_mem_cons.2 ⟨he, hparts⟩, ?_, rfl⟩
    rw [List.append_nil]
    exact hseparated vs

/-! ## Primaries -/

theorem finds_named (hinner : Finds inner (Derives .sum)) {start : Position} {word : String}
    (hword : word ≠ castKeyword) : Finds (named inner n start.line word)
      fun us e => Derives .primary (⟨.word word, start⟩ :: us) e := by
  have hqualified := (finds_symbol '.').bind fun _ => finds_identifier.bind fun callee =>
    (finds_arguments (n := n) hinner).bind fun args =>
      finds_done (Expr.qualifiedCall start.line word callee args)
  have hcall := (finds_arguments (n := n) hinner).bind fun args =>
    finds_done (Expr.call start.line word args)
  refine (hqualified.mono ?_).or ((hcall.mono ?_).or
    ((finds_sliceTail.mono ?_).or ((finds_done _).mono ?_)))
  · rintro us e ⟨_, _, -, rfl, ⟨dot, rfl⟩, _, _, callee, rfl, ⟨hcallee, next, rfl⟩, _, _, args, rfl,
      ⟨parts, ts, opened, closed, rfl, hparts, hseparated, rfl⟩, rfl, rfl⟩
    rw [List.append_nil]
    exact .qualifiedCall start dot next opened closed hword hcallee hseparated hparts
  · rintro us e ⟨_, _, args, rfl, ⟨parts, ts, opened, closed, rfl, hparts, hseparated, rfl⟩, rfl, rfl⟩
    rw [List.append_nil]
    exact .call start opened closed hword hseparated hparts
  · rintro us e ⟨ts, vs, ws, first, last, step, opened, colon, closed, hfirst, hlast, hstep, rfl, rfl⟩
    exact .slice start opened colon closed hword hfirst hlast hstep
  · rintro us e ⟨rfl, rfl⟩
    exact .name start hword

theorem finds_primary (hinner : Finds inner (Derives .sum)) :
    Finds (primary inner n) (Derives .primary) := by
  intro ts e rest hfound
  unfold primary at hfound
  split at hfound
  · split at hfound
    · cases hfound
    · rename_i hword
      obtain ⟨us, rfl, hderives⟩ := finds_named hinner hword _ _ _ hfound
      exact ⟨_, rfl, hderives⟩
  · cases hfound
    exact ⟨[_], rfl, .integer _ _⟩
  · cases hfound
    exact ⟨[_], rfl, .float _ _⟩
  · cases hfound
    exact ⟨[_], rfl, .text _ _ _⟩
  · have hinParens := hinner.bind fun e => (finds_symbol ')').bind fun _ => finds_done e
    obtain ⟨us, rfl, vs, _, e, rfl, he, _, _, -, rfl, ⟨closed, rfl⟩, rfl, rfl⟩ :=
      hinParens _ _ _ hfound
    exact ⟨_, rfl, .parens _ closed he⟩
  · cases hfound

/-! ## Items -/

theorem finds_casts : Finds casts (Flat .operator) := by
  intro ts xs rest hfound
  fun_induction casts ts generalizing xs with
  | case1 start type next ts type' htype ih =>
      obtain ⟨⟨xs, rest'⟩, hcasts, hxs⟩ := Option.map_eq_some_iff.1 hfound
      cases hxs
      obtain ⟨us, rfl, hflat⟩ := ih _ hcasts
      exact ⟨_ :: _ :: us, rfl, .cast start next htype hflat⟩
  | case2 =>
      cases hfound
      exact ⟨[], rfl, .nil⟩
  | case3 =>
      cases hfound
      exact ⟨[], rfl, .nil⟩
  | case4 =>
      cases hfound
      exact ⟨[], rfl, .nil⟩
  | case5 =>
      cases hfound
      exact ⟨[], rfl, .nil⟩

theorem finds_operand (hinner : Finds inner (Derives .sum)) :
    Finds (operand inner n) (Flat .operand) := by
  intro ts xs rest hfound
  fun_induction operand inner n ts generalizing xs with
  | case1 start ts ih =>
      obtain ⟨⟨xs, rest'⟩, hoperand, hxs⟩ := Option.map_eq_some_iff.1 hfound
      cases hxs
      obtain ⟨us, rfl, hflat⟩ := ih _ hoperand
      exact ⟨_, rfl, .negation start hflat⟩
  | case2 ts =>
      have hparts := (finds_primary (n := n) hinner).bind fun e => finds_casts.bind fun xs =>
        finds_done (.operand e :: xs)
      obtain ⟨us, rfl, vs, _, e, rfl, hprimary, ws, _, xs, rfl, hcasts, rfl, rfl⟩ := hparts ts _ _ hfound
      rw [List.append_nil]
      exact ⟨_, rfl, .operand hprimary hcasts⟩

theorem finds_operator : Finds operator
    fun us op => ∃ c start, us = [⟨.symbol c, start⟩] ∧ binaryOp? c = some op := by
  intro ts op rest hfound
  unfold operator at hfound
  split at hfound
  · split at hfound
    · rename_i hop
      cases hfound
      exact ⟨[_], rfl, _, _, rfl, hop⟩
    · cases hfound
  · cases hfound

theorem finds_joined {more : Reading (List Item)} (hmore : Finds more (Flat .operand)) :
    Finds (joined more) (Flat .operator) := by
  have hsome := finds_operator.bind fun op => hmore.bind fun xs => finds_done (.binary op :: xs)
  refine (hsome.mono ?_).or ((finds_done []).mono ?_)
  · rintro us xs ⟨_, _, op, rfl, ⟨c, start, rfl, hop⟩, vs, _, ys, rfl, hflat, rfl, rfl⟩
    rw [List.append_nil]
    exact .binary start hop hflat
  · rintro us xs ⟨rfl, rfl⟩
    exact .nil

theorem finds_items {part : Reading (List Item)} (hpart : Finds part (Flat .operand)) (n : Nat) :
    Finds (items part n) (Flat .operand) := by
  induction n with
  | zero =>
      intro ts xs rest hfound
      cases hfound
  | succ n ih =>
      have hparts := hpart.bind fun first => (finds_joined ih).bind fun more => finds_done (first ++ more)
      refine hparts.mono ?_
      rintro us xs ⟨vs, _, first, rfl, hfirst, ws, _, more, rfl, hmore, rfl, rfl⟩
      rw [List.append_nil]
      exact hfirst.append hmore

/-! ## Expressions -/

/-- The induction is on the bound of the nesting, as for the other half. -/
theorem finds_expression (n : Nat) : Finds (expression n) (Derives .sum) := by
  induction n with
  | zero =>
      intro ts e rest hfound
      cases hfound
  | succ n ih =>
      intro ts e rest hfound
      rw [expression, found_bind, Option.bind_eq_some_iff] at hfound
      obtain ⟨⟨xs, rest'⟩, hitems, hfound⟩ := hfound
      obtain ⟨us, rfl, hflat⟩ := finds_items (finds_operand ih) (n + 1) ts xs rest' hitems
      cases htree : tree? xs with
      | none =>
          simp only [htree] at hfound
          cases hfound
      | some e' =>
          simp only [htree] at hfound
          cases hfound
          exact ⟨us, rfl, derives_sum_iff.2 ⟨xs, hflat, htree⟩⟩

/-- A source is read exactly if its tokens are an expression without a literal out of range. -/
theorem parse_eq_ok_iff {source : String} {line : Nat} : parse source line = .ok e ↔
    Derives .sum (Token.scan ⟨line, 1⟩ source.toList) e ∧ e.errors = [] := by
  constructor
  · intro h
    unfold parse at h
    dsimp only at h
    split at h
    · rename_i e' miss hfound
      split at h
      · rename_i herrors
        cases h
        obtain ⟨us, hus, hderives⟩ := finds_expression _ _ e [] (by rw [hfound])
        rw [List.append_nil] at hus
        exact ⟨hus ▸ hderives, herrors⟩
      · cases h
    · cases h
  · rintro ⟨hderives, herrors⟩
    rw [parse_of_derives hderives, herrors]

end Variorum.Expr
