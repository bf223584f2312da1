import Variorum.Proofs.Template.Reading
import Variorum.Proofs.Template.Transparency

/-!
# Lines of embedded expressions

An expression is read as if it began on the line where its first character stands, but for the line ends
that a backslash escapes in the quotes of the expressions before it: those are not counted.
-/

namespace Variorum.Marker

variable {c : Char} {cs rest before source after : List Char} {earlier : List String}
  {segments : List Segment} {pieces : List Piece} {i line k : Nat}

/-! ## Where an expression stands -/

/-- Behind `before`, which has the earlier expressions in it, stands the body of a marker. -/
structure Opens (cs : List Char) (earlier : List String) (before source after : List Char) : Prop where
  text : cs = before ++ (source ++ '}' :: after)
  enclosed : Enclosed source
  not_blank : ∃ c ∈ source, Text.isBlank c = false
  lays : ∃ segments k, Lays cs segments (List.replicate k '$' ++ '{' :: (source ++ '}' :: after)) ∧
    k % 2 = 1 ∧ Segment.expressions segments = earlier

theorem Opens.char (hc : c ≠ '$') (h : Opens cs earlier before source after) :
    Opens (c :: cs) earlier (c :: before) source after := by
  obtain ⟨segments, k, hlays, hodd, hearlier⟩ := h.lays
  exact ⟨congrArg (c :: ·) h.text, h.enclosed, h.not_blank, _, k, .char hc hlays, hodd, hearlier⟩

theorem Opens.dollars (hk : 0 < k) (hhead : ∀ c ∈ cs.head?, c ≠ '$' ∧ c ≠ '{')
    (h : Opens cs earlier before source after) :
    Opens (List.replicate k '$' ++ cs) earlier (List.replicate k '$' ++ before) source after := by
  obtain ⟨segments, m, hlays, hodd, hearlier⟩ := h.lays
  refine ⟨?_, h.enclosed, h.not_blank, _, m, .dollars hk hhead hlays, hodd, ?_⟩
  · rw [h.text, List.append_assoc]
  · rw [expressions_copied, hearlier]

theorem Opens.brace (hk : 0 < k) (heven : k % 2 = 0) (h : Opens cs earlier before source after) :
    Opens (List.replicate k '$' ++ '{' :: cs) earlier (List.replicate k '$' ++ '{' :: before) source
      after := by
  obtain ⟨segments, m, hlays, hodd, hearlier⟩ := h.lays
  refine ⟨?_, h.enclosed, h.not_blank, _, m, .brace hk heven hlays, hodd, ?_⟩
  · rw [h.text, List.append_assoc, List.cons_append]
  · rw [expressions_copied, expressions_char, hearlier]

theorem Opens.marker {inner : List Char} (hodd : k % 2 = 1) (hinner : Enclosed inner)
    (hblank : ∃ c ∈ inner, Text.isBlank c = false) (h : Opens cs earlier before source after) :
    Opens (List.replicate k '$' ++ '{' :: (inner ++ '}' :: cs))
      (String.ofList (Text.trimChars inner) :: earlier)
      (List.replicate k '$' ++ '{' :: (inner ++ '}' :: before)) source after := by
  obtain ⟨segments, m, hlays, hodd', hearlier⟩ := h.lays
  refine ⟨?_, h.enclosed, h.not_blank, _, m, .marker hodd hinner hblank hlays, hodd', ?_⟩
  · simp [h.text]
  · rw [expressions_copied, expressions_value, hearlier]

/-- Every expression of a layout stands behind those before it. -/
theorem Lays.exists_opens (h : Lays cs segments rest) (hi : i < (Segment.expressions segments).length) :
    ∃ before source after,
      Opens cs ((Segment.expressions segments).take i) before source after := by
  induction h generalizing i with
  | stop => exact absurd hi (Nat.not_lt_zero i)
  | char hc _ ih =>
      obtain ⟨before, source, after, hopens⟩ := ih hi
      exact ⟨_, source, after, hopens.char hc⟩
  | dollars hk hhead _ ih =>
      rw [expressions_copied] at hi ⊢
      obtain ⟨before, source, after, hopens⟩ := ih hi
      exact ⟨_, source, after, hopens.dollars hk hhead⟩
  | brace hk heven _ ih =>
      rw [expressions_copied, expressions_char] at hi ⊢
      obtain ⟨before, source, after, hopens⟩ := ih hi
      exact ⟨_, source, after, hopens.brace hk heven⟩
  | @marker k source cs _ _ hodd hsource hblank _ ih =>
      rw [expressions_copied, expressions_value] at hi ⊢
      cases i with
      | zero =>
          refine ⟨List.replicate k '$' ++ ['{'], source, cs, ?_, hsource, hblank, [], k, .stop, hodd, rfl⟩
          rw [List.append_assoc, List.singleton_append]
      | succ i =>
          obtain ⟨before, inner, after, hopens⟩ := ih (Nat.lt_of_succ_lt_succ hi)
          exact ⟨_, inner, after, hopens.marker hodd hsource hblank⟩

end Variorum.Marker

namespace Variorum.Fragment

open Marker

variable {raw : String} {f : Fragment} {s : EmbeddedSource} {i line : Nat} {cs : List Char}
  {earlier : List String} {before source after : List Char} {pieces : List Piece}

/-! ## The lines of the sources -/

/-- The expression that stands behind the earlier ones is found behind them, on the line that was counted
up to its first character. -/
theorem source_of_opens (h : Opens cs earlier before source after) (hscan : scan line cs = .ok pieces) :
    ∃ line', (sourcesOf pieces)[earlier.length]? =
        some ⟨String.ofList (Text.trimChars source), line'⟩ ∧
      line' + uncounted earlier = line + (before ++ source.takeWhile Text.isBlank).count '\n' := by
  obtain ⟨segments, k, hlays, hodd, rfl⟩ := h.lays
  obtain ⟨found, line', front, rfl, htext, hline, hfinds⟩ := hlays.finds_lines line
  obtain ⟨n, -, hbody⟩ := exists_breaks h.enclosed
  obtain ⟨j, rfl⟩ : ∃ j, k = 2 * j + 1 := ⟨k / 2, by omega⟩
  have hbefore : before = front ++ (List.replicate (2 * j + 1) '$' ++ ['{']) := by
    apply List.append_cancel_right
    calc before ++ (source ++ '}' :: after)
        = front ++ (List.replicate (2 * j + 1) '$' ++ '{' :: (source ++ '}' :: after)) :=
          h.text.symm.trans htext
      _ = front ++ (List.replicate (2 * j + 1) '$' ++ ['{']) ++ (source ++ '}' :: after) := by simp
  -- The scan finds what stands before the marker and then the marker; nothing behind it matters.
  have hall := hfinds.append (finds_odd (finds_body hbody h.not_blank line' after))
  unfold Finds at hall
  rw [hall] at hscan
  obtain ⟨behind, -, rfl⟩ := Except.map_eq_ok.1 hscan
  refine ⟨line' + (source.takeWhile Text.isBlank).count '\n', ?_, ?_⟩
  · rw [expressions_segments, List.length_map]
    simp [sourcesOf]
  · rw [hbefore]
    simp only [List.count_append, count_dollars, List.count_singleton]
    simp
    omega

/-- An expression is read on the line where its first character stands. Only the line ends that a
backslash escapes in the quotes of the expressions before it are missing. -/
theorem line_of_parse (hparse : parse raw = .ok f) (hs : f.sources[i]? = some s) :
    ∃ before source after,
      Opens raw.toList ((f.sources.take i).map (·.text)) before source after ∧
      s.text = String.ofList (Text.trimChars source) ∧
      s.line + uncounted ((f.sources.take i).map (·.text)) =
        1 + (before ++ source.takeWhile Text.isBlank).count '\n' ∧
      ∀ t, Template.ofFragment f = .ok t →
        ∃ e, t.exprs[i]? = some e ∧ Expr.parse s.text s.line = .ok e := by
  obtain ⟨pieces, hscan, hsources⟩ := scan_of_parse hparse
  obtain ⟨hi, hget⟩ := List.getElem?_eq_some_iff.1 hs
  have hexpressions : Segment.expressions (pieces.map Piece.segment) = f.sources.map (·.text) := by
    rw [expressions_segments, hsources]
  have hbound : i < (Segment.expressions (pieces.map Piece.segment)).length := by
    rwa [hexpressions, List.length_map]
  obtain ⟨before, source, after, hopens⟩ := (lays_of_scan hscan).exists_opens hbound
  rw [hexpressions, ← List.map_take] at hopens
  obtain ⟨line', hfound, hline⟩ := source_of_opens hopens hscan
  have hlength : ((f.sources.take i).map (·.text)).length = i := by
    rw [List.length_map, List.length_take, Nat.min_eq_left (Nat.le_of_lt hi)]
  rw [hlength, ← hsources, hs] at hfound
  obtain rfl := Option.some.inj hfound
  refine ⟨before, source, after, hopens, rfl, hline, fun t ht => ?_⟩
  have hread := Template.forall₂_of_parseAll t.parse_sources
  rw [Template.fragment_of_ofFragment ht] at hread
  have hi' : i < t.exprs.length := hread.length_eq ▸ hi
  refine ⟨t.exprs[i], List.getElem?_eq_getElem hi', ?_⟩
  have hparsed := (List.forall₂_iff_get.1 hread).2 i hi hi'
  rwa [List.get_eq_getElem, hget] at hparsed

/-- The text has an expression behind one in which a line end is escaped. -/
theorem exists_parse_escaped : ∃ f, parse "$\x7b'\\\n'\x7d$\x7bx\x7d" = .ok f ∧
    f.sources = [⟨"'\\\n'", 1⟩, ⟨"x", 1⟩] := by
  have hscan : scan 1 "$\x7b'\\\n'\x7d$\x7bx\x7d".toList =
      .ok [.expression "'\\\n'" 1, .expression "x" 1] := by
    decide +kernel
  obtain ⟨f, hf, -, hsources⟩ := exists_parse hscan (by decide)
  exact ⟨f, hf, hsources⟩

theorem line_of_parse_escaped : ∃ f, parse "$\x7b'\\\n'\x7d$\x7bx\x7d" = .ok f ∧
    f.sources[1]? = some ⟨"x", 1⟩ ∧
    ∃ before source after,
      Opens "$\x7b'\\\n'\x7d$\x7bx\x7d".toList ((f.sources.take 1).map (·.text)) before source after ∧
      "x" = String.ofList (Text.trimChars source) ∧
      1 + uncounted ((f.sources.take 1).map (·.text)) =
        1 + (before ++ source.takeWhile Text.isBlank).count '\n' ∧
      ∀ t, Template.ofFragment f = .ok t → ∃ e, t.exprs[1]? = some e ∧ Expr.parse "x" 1 = .ok e := by
  obtain ⟨f, hf, hsources⟩ := exists_parse_escaped
  have hsource : f.sources[1]? = some ⟨"x", 1⟩ := by
    rw [hsources]
    rfl
  exact ⟨f, hf, hsource, line_of_parse hf hsource⟩

/-- An escaped line end before an expression makes its line one too small. -/
theorem line_too_small : ∃ f s before source after,
    parse "$\x7b'\\\n'\x7d$\x7bx\x7d" = .ok f ∧ f.sources[1]? = some s ∧
      Opens "$\x7b'\\\n'\x7d$\x7bx\x7d".toList ((f.sources.take 1).map (·.text)) before source after ∧
      s.line = 1 ∧ 1 + (before ++ source.takeWhile Text.isBlank).count '\n' = 2 := by
  obtain ⟨f, hf, hsources⟩ := exists_parse_escaped
  have hquoted : Enclosed ['\'', '\\', '\n', '\''] :=
    .quoted (.inr rfl) (.escaped .nil) .nil
  have hx : Enclosed ['x'] :=
    .char (by rintro (⟨⟨⟩⟩ | ⟨⟨⟩⟩)) (by decide) (by decide) .nil
  have hlays : Lays "$\x7b'\\\n'\x7d$\x7bx\x7d".toList [.value "'\\\n'"]
      (List.replicate 1 '$' ++ '{' :: (['x'] ++ '}' :: [])) :=
    .marker (k := 1) rfl hquoted ⟨'\'', by simp, rfl⟩ .stop
  refine ⟨f, ⟨"x", 1⟩, "$\x7b'\\\n'\x7d$\x7b".toList, ['x'], [], hf, ?_, ?_, rfl, by decide⟩
  · rw [hsources]
    rfl
  · rw [hsources]
    exact ⟨rfl, hx, ⟨'x', by simp, rfl⟩, _, 1, hlays, rfl, rfl⟩

end Variorum.Fragment
