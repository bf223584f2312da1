import Variorum.Proofs.Except
import Variorum.Proofs.Template.Encoding
import Variorum.Proofs.Template.Scanning

/-!
# Rendering is transparent

Between the scanner and the renderer a template is written as a skeleton and read back. Nothing of it
is lost there: what is copied and where values go is decided by the layout of the text alone.
-/

namespace Variorum.Fragment

open Marker

variable {k : Nat} {pieces : List Piece} {values : List String} {f : Fragment} {raw : String}

/-! ## The skeleton of a template -/

theorem placeholders_partsOf :
    Skeleton.placeholders (partsOf k pieces) = List.range' k (sourcesOf pieces).length := by
  induction pieces generalizing k with
  | nil => rfl
  | cons p pieces ih =>
      cases p with
      | char c => exact ih
      | expression source line => exact congrArg (k :: ·) ih

theorem length_sourcesOf_le : (sourcesOf pieces).length ≤ pieces.length :=
  List.length_filterMap_le _ _

/-- A skeleton whose placeholders count the sources makes a fragment with them. -/
theorem exists_ofSources_of_decode {skeleton : String} {sources : List EmbeddedSource}
    {parts : List Skeleton.Part} (hdecode : Skeleton.decode 1 skeleton.toList = .ok parts)
    (hplaceholders : Skeleton.placeholders parts = List.range sources.length) :
    ∃ f, ofSources skeleton sources = .ok f ∧ f.parts = parts ∧ f.sources = sources := by
  unfold ofSources
  split
  · rename_i e heq
    rw [hdecode] at heq
    cases heq
  · rename_i parts' heq
    rw [hdecode] at heq
    cases heq
    rw [dif_pos hplaceholders]
    exact ⟨_, rfl, rfl, rfl⟩

theorem exists_ofSources (h : (sourcesOf pieces).length ≤ Integer.wordCount) :
    ∃ f, ofSources (String.ofList (Skeleton.encode (partsOf 0 pieces))) (sourcesOf pieces) = .ok f ∧
      f.parts = partsOf 0 pieces ∧ f.sources = sourcesOf pieces := by
  have hplaceholders : Skeleton.placeholders (partsOf 0 pieces) = List.range (sourcesOf pieces).length := by
    rw [placeholders_partsOf, List.range_eq_range']
  refine exists_ofSources_of_decode ?_ hplaceholders
  rw [String.toList_ofList]
  refine Skeleton.decode_encode fun i hi => ?_
  rw [hplaceholders, List.mem_range] at hi
  omega

theorem of_ofSources {skeleton : String} {sources : List EmbeddedSource}
    (h : ofSources skeleton sources = .ok f) : f.skeleton = skeleton ∧ f.sources = sources := by
  unfold ofSources at h
  split at h
  · cases h
  · split at h
    · cases h
      exact ⟨rfl, rfl⟩
    · cases h

theorem scan_of_parse (h : parse raw = .ok f) :
    ∃ pieces, scan 1 raw.toList = .ok pieces ∧ f.sources = sourcesOf pieces := by
  obtain ⟨pieces, hscan, hf⟩ := Except.bind_eq_ok.1 h
  exact ⟨pieces, hscan, (of_ofSources hf).2⟩

/-- What is scanned of a text becomes its fragment, if each expression in it can be known by a word. -/
theorem exists_parse_of_sources (h : scan 1 raw.toList = .ok pieces)
    (hsources : (sourcesOf pieces).length ≤ Integer.wordCount) :
    ∃ f, parse raw = .ok f ∧ f.parts = partsOf 0 pieces ∧ f.sources = sourcesOf pieces := by
  obtain ⟨f, hf, hparts⟩ := exists_ofSources hsources
  refine ⟨f, ?_, hparts⟩
  rw [parse, h]
  exact hf

theorem exists_parse (h : scan 1 raw.toList = .ok pieces) (hlength : raw.length < Integer.wordCount) :
    ∃ f, parse raw = .ok f ∧ f.parts = partsOf 0 pieces ∧ f.sources = sourcesOf pieces := by
  have hpieces := length_pieces_le h
  have hsources : (sourcesOf pieces).length ≤ pieces.length := length_sourcesOf_le
  rw [String.length_toList] at hpieces
  exact exists_parse_of_sources h (by omega)

/-! ## The text that is rendered -/

theorem expressions_segments : Segment.expressions (pieces.map Piece.segment) =
    (sourcesOf pieces).map (·.text) := by
  induction pieces with
  | nil => rfl
  | cons p pieces ih =>
      cases p with
      | char c => exact ih
      | expression source line => exact congrArg (source :: ·) ih

/-- The first of the values that are left goes to the next expression. -/
theorem join_value (source : String) (segments : List Segment) :
    Segment.join (.value source :: segments) values =
      values.head?.getD "" ++ Segment.join segments values.tail := by
  cases values with
  | nil => exact String.empty_append.symm
  | cons v values => rfl

theorem foldl_partsOf (values : List String) (s : String) :
    (partsOf k pieces).foldl (Skeleton.appendPart values.toArray) s =
      s ++ Segment.join (pieces.map Piece.segment) (values.drop k) := by
  induction pieces generalizing k s with
  | nil => exact String.append_empty.symm
  | cons p pieces ih =>
      cases p with
      | char c =>
          rw [partsOf, List.foldl_cons, ih, Skeleton.appendPart, ← String.append_singleton,
            String.append_assoc]
          rfl
      | expression source line =>
          have hvalue : values.toArray.getD k "" = (values.drop k).head?.getD "" := by
            simp [List.head?_drop]
          rw [partsOf, List.foldl_cons, ih, Skeleton.appendPart, hvalue, String.append_assoc,
            List.map_cons, Piece.segment, join_value, List.tail_drop]

theorem render_eq_join (h : f.parts = partsOf 0 pieces) :
    f.render values = Segment.join (pieces.map Piece.segment) values := by
  rw [render, Skeleton.fill, h, foldl_partsOf, String.empty_append, List.drop_zero]

/-- The fragment has the expressions of the segments, and the same text for all their values. -/
structure Renders (f : Fragment) (segments : List Segment) : Prop where
  expressions_eq : f.expressions = Segment.expressions segments
  render_eq : ∀ values, values.length = f.expressions.length →
    f.render values = Segment.join segments values

/-- Every text is rendered as it is laid out, unless one of its markers is not closed or empty. An
expression is known by a machine word, of which there are more than a text in memory has characters. -/
theorem parse_transparent (raw : String) (h : raw.length < Integer.wordCount) :
    (∃ segments f, Lays raw.toList segments [] ∧ parse raw = .ok f ∧ f.Renders segments) ∨
    ∃ segments k after error line, Lays raw.toList segments (List.replicate k '$' ++ '{' :: after) ∧
      k % 2 = 1 ∧ Bad after error ∧ parse raw = .error (error line) := by
  rcases scan_cases 1 raw.toList with ⟨pieces, hscan, hlays⟩ |
    ⟨segments, k, after, error, line, hlays, hodd, hbad, hscan⟩
  · obtain ⟨f, hparse, hparts, hsources⟩ := exists_parse hscan h
    refine .inl ⟨_, f, hlays, hparse, ?_, fun values _ => render_eq_join hparts⟩
    rw [expressions, hsources, expressions_segments]
  · refine .inr ⟨segments, k, after, error, line, hlays, hodd, hbad, ?_⟩
    rw [parse, hscan]
    rfl

theorem parse_transparent_dollars :
    "$$$\x7bx\x7d\x7b0\x7d".length < Integer.wordCount ∧
      ((∃ segments f, Lays "$$$\x7bx\x7d\x7b0\x7d".toList segments [] ∧
          parse "$$$\x7bx\x7d\x7b0\x7d" = .ok f ∧ f.Renders segments) ∨
        ∃ segments k after error line,
          Lays "$$$\x7bx\x7d\x7b0\x7d".toList segments (List.replicate k '$' ++ '{' :: after) ∧
            k % 2 = 1 ∧ Bad after error ∧ parse "$$$\x7bx\x7d\x7b0\x7d" = .error (error line)) :=
  ⟨by decide, parse_transparent _ (by decide)⟩

end Variorum.Fragment
