import Variorum.Proofs.Template.Embedding
import Variorum.Proofs.Template.Transparency
import Variorum.Template.Basic

/-!
# Templates are put together

A text without dollars, a marker around any expression that can be read, and a template make one
template. What the parts mean does not change; only the lines on which they stand do.
-/

namespace Variorum

variable {k line : Nat} {cs rest : List Char}

/-! ## Expressions that are moved -/

namespace Expr

variable {source : String} {e : Expr}

theorem parse_below (k : Nat) (h : parse source line = .ok e) :
    parse source (line + k) = .ok (e.mapLines (· + k)) := by
  obtain ⟨lits, hspelled, hrange⟩ := parse_eq_ok_iff_spelled.1 h
  obtain ⟨lits', hspelled', hrel⟩ := hspelled.move k
  exact parse_eq_ok_iff_spelled.2 ⟨lits', hspelled', inRange_below hrel hrange⟩

theorem line_after_count (p : Position) (cs : List Char) :
    (p.after cs).line = p.line + cs.count '\n' := by
  induction cs generalizing p with
  | nil => rfl
  | cons c cs ih =>
      have hstep : p.after (c :: cs) = (p.next c).after cs := rfl
      rw [hstep, ih, List.count_cons, Position.next]
      by_cases hc : c = '\n'
      · simp [hc]
        omega
      · simp [hc]

theorem not_derives_nil : ¬Derives .sum [] e := by
  intro h
  have hfound := h.found_expression (n := 1) [] (by simp) trivial
  cases hfound

/-- The tokens of an expression stand between blanks of the grammar, which are all that trimming takes
away. -/
theorem derives_trim (h : Derives .sum (Token.scan ⟨1, 1⟩ source.toList) e) :
    Derives .sum (Token.scan (Position.after ⟨1, 1⟩ (source.toList.takeWhile Text.isBlank))
      (Text.trimChars source.toList)) e := by
  obtain ⟨lits, hspelled⟩ := exists_spelled_iff.2 h
  have hcomposed := hspelled.composed
  obtain ⟨trail, htrail, hsource⟩ := Text.exists_trimChars source.toList
  rw [hsource] at h hcomposed
  have hlead := hcomposed.lead (List.all_eq_true.1 List.all_takeWhile)
  rw [← List.append_assoc] at hcomposed
  rwa [Cursor.scan_blanks hlead, scan_append_blanks _ _ (hcomposed.trail htrail)] at h

/-- An expression is read as before where the blanks around it are taken away, on the line of its first
token or further down. -/
theorem parse_trim (k : Nat) (h : parse source 1 = .ok e) :
    parse (Text.trim source) (1 + (source.toList.takeWhile Text.isBlank).count '\n' + k) =
      .ok (e.mapLines (· + k)) := by
  obtain ⟨hderives, herrors⟩ := parse_eq_ok_iff.1 h
  have htrim := derives_trim hderives
  generalize source.toList.takeWhile Text.isBlank = lead at *
  obtain ⟨b, lits, hspells, hscan⟩ :=
    htrim.spelledBy ⟨Position.after ⟨1, 1⟩ lead, Text.trimChars source.toList⟩ [] (List.append_nil _).symm
  have hrange : ∀ lit ∈ lits, lit.InRange := by
    refine firstError?_eq_none_iff.1 ?_
    rw [← hspells.head?_errors, herrors, List.head?_nil]
  -- The columns of the first line change, but they would matter to errors only.
  have hbelow : Cursor.Below k True ⟨Position.after ⟨1, 1⟩ lead, Text.trimChars source.toList⟩
      ⟨⟨1 + lead.count '\n' + k, 1⟩, Text.trimChars source.toList⟩ :=
    ⟨⟨by rw [line_after_count], fun hfree => absurd trivial hfree⟩, rfl⟩
  obtain ⟨b', lits', hspells', hb, hrel⟩ := hspells.move hbelow fun _ => hrange
  have htrimmed : (Text.trim source).toList = Text.trimChars source.toList := by
    rw [Text.trim, String.toList_ofList]
  rw [← htrimmed] at hspells'
  refine parse_eq_ok_iff_spelled.2 ⟨lits', ⟨b', hspells', ?_⟩, inRange_below hrel hrange⟩
  rw [hb.ahead_eq]
  exact scan_eq_nil_iff.1 hscan

theorem exists_not_blank (h : parse source 1 = .ok e) :
    ∃ c ∈ source.toList, Text.isBlank c = false := by
  have htrim := derives_trim (parse_eq_ok_iff.1 h).1
  refine Decidable.byContradiction fun hnone => ?_
  have hblank : ∀ c ∈ source.toList, Text.isBlank c = true := by simpa using hnone
  rw [Text.trimChars_eq_nil_iff.2 hblank, Token.scan_nil] at htrim
  exact not_derives_nil htrim

end Expr

/-! ## Pieces that are moved -/

namespace Marker

variable {pieces : List Piece}

/-- The same piece, some lines further down. -/
def Piece.below (k : Nat) : Piece → Piece
  | .char c => .char c
  | .expression source line => .expression source (line + k)

theorem pieceOf_below {source : List Char} {p : Piece} (h : pieceOf line source = .ok p) :
    pieceOf (line + k) source = .ok (p.below k) := by
  unfold pieceOf at *
  split at h
  · cases h
  · rename_i hne
    cases h
    rw [if_neg hne]
    exact congrArg (fun n => Except.ok (Piece.expression _ n)) (Nat.add_right_comm ..)

/-- A text is scanned the same on later lines. -/
theorem scan_below (h : scan line cs = .ok pieces) :
    scan (line + k) cs = .ok (pieces.map (Piece.below k)) := by
  fun_induction scan line cs generalizing pieces with
  | case1 line =>
      cases h
      rw [scan]
      rfl
  | case2 line cs ih =>
      obtain ⟨ps, hps, rfl⟩ := Except.map_eq_ok.1 h
      rw [scan, ih hps]
      rfl
  | case3 line cs hopen ih =>
      obtain ⟨ps, hps, rfl⟩ := Except.map_eq_ok.1 h
      rw [scan, ih hps]
      · rfl
      · exact hopen
  | case4 => cases h
  | case5 line cs b hbody ih =>
      obtain ⟨p, hp, hrest⟩ := Except.bind_eq_ok.1 h
      obtain ⟨ps, hps, hpieces⟩ := Except.bind_eq_ok.1 hrest
      cases hpieces
      rw [scan]
      split
      · rename_i heq
        rw [hbody] at heq
        cases heq
      · rename_i heq
        rw [hbody] at heq
        cases heq
        rw [pieceOf_below hp, Nat.add_right_comm, ih hps]
        rfl
  | case6 line c cs hescaped hpair hopen ih =>
      obtain ⟨ps, hps, rfl⟩ := Except.map_eq_ok.1 h
      have hline : (if c = '\n' then line + k + 1 else line + k) =
          (if c = '\n' then line + 1 else line) + k := by
        split
        · exact Nat.add_right_comm ..
        · rfl
      have hrest : scan ((if c = '\n' then line + 1 else line) + k) cs =
          .ok (ps.map (Piece.below k)) := ih hps
      rw [scan, hline, hrest]
      · rfl
      · exact hescaped
      · exact hpair
      · exact hopen

/-- A text without dollars is copied. -/
theorem finds_plain (h : '$' ∉ cs) :
    Finds line (cs ++ rest) (cs.map .char) (line + cs.count '\n') rest := by
  induction cs generalizing line with
  | nil => exact finds_nil
  | cons c cs ih =>
      obtain ⟨hc, hcs⟩ := List.ne_and_not_mem_of_not_mem_cons h
      have hline : (if c = '\n' then line + 1 else line) + cs.count '\n' = line + (c :: cs).count '\n' := by
        rw [List.count_cons]
        by_cases hc : c = '\n'
        · simp [hc]
          omega
        · simp [hc]
      rw [← hline]
      exact (finds_char hc.symm).append (ih hcs)

end Marker

/-! ## Templates -/

namespace Template

open Marker

variable {raw : String} {pieces : List Piece} {es : List Expr} {t : Template}

/-- The same source, some lines further down. -/
def sourceBelow (k : Nat) (s : EmbeddedSource) : EmbeddedSource :=
  ⟨s.text, s.line + k⟩

theorem sourcesOf_below :
    Fragment.sourcesOf (pieces.map (Piece.below k)) = (Fragment.sourcesOf pieces).map (sourceBelow k) := by
  induction pieces with
  | nil => rfl
  | cons p pieces ih =>
      cases p with
      | char c => exact ih
      | expression source line => exact congrArg (sourceBelow k ⟨source, line⟩ :: ·) ih

theorem parse_eq_ok_iff {s : EmbeddedSource} {e : Expr} :
    s.parse = .ok e ↔ Expr.parse s.text s.line = .ok e := by
  unfold EmbeddedSource.parse
  cases Expr.parse s.text s.line with
  | ok e => simp
  | error e => simp

theorem parseAll_cons {text : String} {e : Expr} {sources : List EmbeddedSource}
    (h : Expr.parse text line = .ok e) (hs : EmbeddedSource.parseAll sources = .ok es) :
    EmbeddedSource.parseAll (⟨text, line⟩ :: sources) = .ok (e :: es) := by
  have hparse : EmbeddedSource.parse ⟨text, line⟩ = .ok e := parse_eq_ok_iff.2 h
  rw [EmbeddedSource.parseAll, hparse, hs]
  rfl

theorem parseAll_below {sources : List EmbeddedSource} (h : EmbeddedSource.parseAll sources = .ok es) :
    EmbeddedSource.parseAll (sources.map (sourceBelow k)) = .ok (es.map (Expr.mapLines (· + k))) := by
  induction sources generalizing es with
  | nil =>
      cases h
      rfl
  | cons s sources ih =>
      obtain ⟨e, he, hrest⟩ := Except.bind_eq_ok.1 h
      obtain ⟨es', hes, hcons⟩ := Except.bind_eq_ok.1 hrest
      cases hcons
      exact parseAll_cons (Expr.parse_below k (parse_eq_ok_iff.1 he)) (ih hes)

theorem fragment_of_ofFragment {f : Fragment} (h : ofFragment f = .ok t) : t.fragment = f := by
  unfold ofFragment at h
  split at h
  · cases h
    rfl
  · cases h

theorem exists_ofFragment {f : Fragment} (h : EmbeddedSource.parseAll f.sources = .ok es) :
    ∃ t, ofFragment f = .ok t ∧ t.exprs = es := by
  unfold ofFragment
  split
  · rename_i heq
    rw [h] at heq
    cases heq
    exact ⟨_, rfl, rfl⟩
  · rename_i heq
    rw [h] at heq
    cases heq

theorem compile_of_parse {f : Fragment} (hf : Fragment.parse raw = .ok f)
    (hparse : EmbeddedSource.parseAll f.sources = .ok es) :
    ∃ t, compile raw = .ok t ∧ t.exprs = es ∧ t.fragment = f := by
  obtain ⟨t, ht, hes⟩ := exists_ofFragment hparse
  refine ⟨t, ?_, hes, fragment_of_ofFragment ht⟩
  rw [compile, hf]
  exact ht

/-- What is scanned of a text becomes its template, if all its expressions can be read. -/
theorem exists_compile (hscan : scan 1 raw.toList = .ok pieces) (hlength : raw.length < Integer.wordCount)
    (hparse : EmbeddedSource.parseAll (Fragment.sourcesOf pieces) = .ok es) :
    ∃ t, compile raw = .ok t ∧ t.exprs = es ∧ t.fragment.sources = Fragment.sourcesOf pieces ∧
      t.fragment.parts = Fragment.partsOf 0 pieces := by
  obtain ⟨f, hf, hparts, hsources⟩ := Fragment.exists_parse hscan hlength
  rw [← hsources] at hparse
  obtain ⟨t, ht, hes, rfl⟩ := compile_of_parse hf hparse
  exact ⟨t, ht, hes, hsources, hparts⟩

theorem pieces_of_compile (h : compile raw = .ok t) (hlength : raw.length < Integer.wordCount) :
    ∃ pieces, scan 1 raw.toList = .ok pieces ∧ t.fragment.sources = Fragment.sourcesOf pieces ∧
      t.fragment.parts = Fragment.partsOf 0 pieces := by
  obtain ⟨f, hf, ht⟩ := Except.bind_eq_ok.1 h
  have hfragment := fragment_of_ofFragment ht
  rcases scan_cases 1 raw.toList with ⟨pieces, hscan, -⟩ | ⟨_, _, _, _, _, -, -, -, hscan⟩
  · obtain ⟨g, hg, hparts, hsources⟩ := Fragment.exists_parse hscan hlength
    rw [hf] at hg
    cases hg
    exact ⟨pieces, hscan, hfragment ▸ hsources, hfragment ▸ hparts⟩
  · rw [Fragment.parse, hscan] at hf
    cases hf

theorem segments_below :
    (pieces.map (Piece.below k)).map Piece.segment = pieces.map Piece.segment := by
  rw [List.map_map]
  refine List.map_congr_left fun p _ => ?_
  cases p with
  | char c => rfl
  | expression source line => rfl

theorem sourcesOf_plain : Fragment.sourcesOf (cs.map .char) = [] := by
  induction cs with
  | nil => rfl
  | cons c cs ih => exact ih

/-- The sources of a template that begins with a text and an expression. -/
theorem sourcesOf_embedded (cs : List Char) (source : String) (line : Nat) :
    Fragment.sourcesOf (cs.map .char ++ [.expression source line] ++ pieces) =
      ⟨source, line⟩ :: Fragment.sourcesOf pieces := by
  have happend : ∀ ps qs, Fragment.sourcesOf (ps ++ qs) = Fragment.sourcesOf ps ++ Fragment.sourcesOf qs :=
    fun ps qs => List.filterMap_append
  rw [happend, happend, sourcesOf_plain]
  rfl

theorem join_copied (cs : List Char) (segments : List Segment) (values : List String) :
    Segment.join (cs.map .copied ++ segments) values = String.ofList cs ++ Segment.join segments values := by
  induction cs with
  | nil => exact String.empty_append.symm
  | cons c cs ih =>
      have hcons : String.ofList (c :: cs) = String.singleton c ++ String.ofList cs := by
        rw [String.singleton_eq_ofList, ← String.ofList_append, List.singleton_append]
      rw [List.map_cons, List.cons_append, Segment.join, ih, hcons, String.append_assoc]

/-- A marker around an expression ends where the expression does, whatever braces and quotes there are
in it, and what stands before and behind it is a template as if it stood alone. -/
theorem compile_embedded {p e s : String} {n : Expr} {t : Template} (hp : '$' ∉ p.toList)
    (he : Expr.parse e 1 = .ok n) (hs : compile s = .ok t)
    (hlength : (p ++ "$\x7b" ++ e ++ "\x7d" ++ s).length < Integer.wordCount) :
    ∃ u k, compile (p ++ "$\x7b" ++ e ++ "\x7d" ++ s) = .ok u ∧
      u.fragment.expressions = Text.trim e :: t.fragment.expressions ∧
      u.exprs = n.mapLines (· + p.toList.count '\n') :: t.exprs.map (Expr.mapLines (· + k)) ∧
      ∀ v vs, u.fragment.render (v :: vs) = p ++ v ++ t.fragment.render vs := by
  obtain ⟨lits, hspelled, -⟩ := Expr.parse_eq_ok_iff_spelled.1 he
  obtain ⟨pieces, hscan, hsources, hparts⟩ := pieces_of_compile hs (by
    simp only [String.length_append] at hlength
    omega)
  have htext : (p ++ "$\x7b" ++ e ++ "\x7d" ++ s).toList =
      p.toList ++ '$' :: '{' :: (e.toList ++ '}' :: s.toList) := by
    simp
  -- The marker takes `e` and nothing else, and `s` is scanned as it is alone, but further down.
  obtain ⟨m, hmarker⟩ := finds_marker hspelled.composed.enclosed (Expr.exists_not_blank he)
    (1 + p.toList.count '\n') s.toList
  have hfinds := (finds_plain hp).append hmarker
  have hbelow : scan (1 + p.toList.count '\n' + m) s.toList =
      .ok (pieces.map (Piece.below (p.toList.count '\n' + m))) := by
    rw [Nat.add_assoc]
    exact scan_below hscan
  unfold Finds at hfinds
  rw [← htext, hbelow] at hfinds
  have hfirst := Expr.parse_trim (p.toList.count '\n') he
  rw [Nat.add_right_comm] at hfirst
  have hrest := parseAll_below (k := p.toList.count '\n' + m) t.parse_sources
  rw [hsources, ← sourcesOf_below] at hrest
  have hread := parseAll_cons hfirst hrest
  rw [← sourcesOf_embedded p.toList] at hread
  obtain ⟨u, hu, hexprs, husources, huparts⟩ := exists_compile hfinds hlength hread
  refine ⟨u, p.toList.count '\n' + m, hu, ?_, hexprs, fun v vs => ?_⟩
  · rw [Fragment.expressions, husources, sourcesOf_embedded, sourcesOf_below, List.map_cons, List.map_map,
      Fragment.expressions, hsources]
    rfl
  · have hcopied := join_copied p.toList (.value (Text.trim e) :: pieces.map Piece.segment) (v :: vs)
    rw [String.ofList_toList, Segment.join, ← String.append_assoc] at hcopied
    rw [Fragment.render_eq_join huparts, Fragment.render_eq_join hparts, ← hcopied, List.map_append,
      List.map_append, segments_below, List.map_map, List.append_assoc]
    rfl

theorem compile_embedded_brace :
    '$' ∉ "\n".toList ∧ Expr.parse " '\x7d' " 1 = .ok (.literal 1 (.text "\x7d")) ∧
      ("\n" ++ "$\x7b" ++ " '\x7d' " ++ "\x7d" ++ "b").length < Integer.wordCount ∧
      ∃ t, compile "b" = .ok t ∧
        ∃ u k, compile ("\n" ++ "$\x7b" ++ " '\x7d' " ++ "\x7d" ++ "b") = .ok u ∧
          u.fragment.expressions = Text.trim " '\x7d' " :: t.fragment.expressions ∧
          u.exprs = (Expr.literal 1 (.text "\x7d")).mapLines (· + "\n".toList.count '\n') ::
            t.exprs.map (Expr.mapLines (· + k)) ∧
          ∀ v vs, u.fragment.render (v :: vs) = "\n" ++ v ++ t.fragment.render vs := by
  have htokens : Token.scan ⟨1, 1⟩ " '\x7d' ".toList = [⟨.text '\'' ['\x7d'], ⟨1, 2⟩⟩] := by
    decide +kernel
  have he : Expr.parse " '\x7d' " 1 = .ok (.literal 1 (.text "\x7d")) := by
    refine Expr.parse_eq_ok_iff.2 ⟨?_, rfl⟩
    rw [htokens]
    exact .ofProduct (.ofUnary (.ofCast (.ofPrimary (.text '\'' ['\x7d'] ⟨1, 2⟩))))
  have hscan : scan 1 "b".toList = .ok [.char 'b'] := Except.toOption_eq_some.1 (by decide +kernel)
  obtain ⟨t, ht, -⟩ := exists_compile hscan (by decide) rfl
  exact ⟨by decide, he, by decide, t, ht, compile_embedded (by decide) he ht (by decide)⟩

end Template

end Variorum
