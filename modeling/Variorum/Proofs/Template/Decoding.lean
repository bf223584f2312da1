import Variorum.Proofs.Template.Transparency

/-!
# Fragments from their parts

A skeleton is accepted with some expressions exactly if its placeholders count them. Texts with numbered
placeholders between them are such a skeleton once their braces are doubled, and it renders the texts with
the values between them.
-/

namespace Variorum

namespace Skeleton

/-- A text with each of its braces written twice. -/
def doubled (text : String) : String :=
  String.ofList (text.toList.flatMap encodeChar)

/-- Texts with doubled braces, each behind a placeholder with the next number. -/
def numbered (index : Nat) : List String → String
  | [] => ""
  | text :: texts =>
    "\x7b" ++ toString index ++ "\x7d" ++ doubled text ++ numbered (index + 1) texts

/-- Texts, each behind a value. -/
def interleaved : (values texts : List String) → String
  | value :: values, text :: texts => value ++ text ++ interleaved values texts
  | _, _ => ""

def numberedParts (index : Nat) : List String → List Part
  | [] => []
  | text :: texts => .placeholder index :: (text.toList.map .char ++ numberedParts (index + 1) texts)

variable {cs : List Char} {parts : List Part} {index : Nat} {values texts : List String}

/-! ## Texts between placeholders -/

theorem Reads.doubled (h : Reads cs parts) (text : String) :
    Reads ((Skeleton.doubled text).toList ++ cs) (text.toList.map .char ++ parts) := by
  rw [Skeleton.doubled, String.toList_ofList]
  induction text.toList with
  | nil => exact h
  | cons c chars ih =>
      rw [List.flatMap_cons, List.append_assoc]
      exact ih.encodeChar

theorem reads_numbered (index : Nat) (texts : List String) :
    Reads (numbered index texts).toList (numberedParts index texts) := by
  induction texts generalizing index with
  | nil => exact .nil
  | cons text texts ih =>
      have hnumbered : (numbered index (text :: texts)).toList = '{' :: (Nat.toDigits 10 index ++
          '}' :: ((Skeleton.doubled text).toList ++ (numbered (index + 1) texts).toList)) := by
        simp [numbered]
      exact hnumbered ▸ ((ih (index + 1)).doubled text).toDigits

theorem placeholders_chars (chars : List Char) (parts : List Part) :
    placeholders (chars.map .char ++ parts) = placeholders parts := by
  induction chars with
  | nil => rfl
  | cons c chars ih => exact ih

theorem placeholders_numberedParts :
    placeholders (numberedParts index texts) = List.range' index texts.length := by
  induction texts generalizing index with
  | nil => rfl
  | cons text texts ih =>
      have hrest := placeholders_chars text.toList (numberedParts (index + 1) texts)
      exact congrArg (index :: ·) (hrest.trans ih)

theorem foldl_chars (values : Array String) (s : String) (chars : List Char) :
    (chars.map .char).foldl (appendPart values) s = s ++ String.ofList chars := by
  induction chars generalizing s with
  | nil => exact String.append_empty.symm
  | cons c chars ih =>
      rw [List.map_cons, List.foldl_cons, ih, appendPart]
      apply String.toList_injective
      simp

/-- The values from an index on are put before the texts whose placeholders begin with this index. -/
theorem foldl_numberedParts (h : values.length = index + texts.length) (s : String) :
    (numberedParts index texts).foldl (appendPart values.toArray) s =
      s ++ interleaved (values.drop index) texts := by
  induction texts generalizing index s with
  | nil =>
      have hdrop : values.drop index = [] := List.drop_eq_nil_of_le (Nat.le_of_eq h)
      rw [hdrop]
      exact String.append_empty.symm
  | cons text texts ih =>
      rw [List.length_cons] at h
      have hlt : index < values.length := by omega
      have hvalue : values.toArray.getD index "" = values[index] := by
        simp [hlt]
      have hrest : values.length = index + 1 + texts.length := by omega
      rw [List.drop_eq_getElem_cons hlt, interleaved, numberedParts, List.foldl_cons, List.foldl_append,
        foldl_chars, String.ofList_toList, ih hrest, appendPart, hvalue]
      simp only [String.append_assoc]

end Skeleton

namespace Fragment

open Skeleton

variable {skeleton : String} {expressions : List String}

/-- Indices that count the expressions are machine words, as there are no more expressions than words. -/
theorem exists_ofParts_of_reads {parts : List Part} (h : expressions.length ≤ Integer.wordCount)
    (hreads : Reads skeleton.toList parts)
    (hplaceholders : placeholders parts = List.range expressions.length) :
    ∃ f, ofParts skeleton expressions = .ok f ∧ f.parts = parts ∧ f.expressions = expressions := by
  have hdecode : decode 1 skeleton.toList = .ok parts := by
    refine hreads.decode fun i hi => ?_
    rw [hplaceholders, List.mem_range] at hi
    omega
  have hcount : placeholders parts =
      List.range (expressions.map fun text => EmbeddedSource.mk text 1).length := by
    rwa [List.length_map]
  obtain ⟨f, hf, hparts, hsources⟩ := exists_ofSources_of_decode hdecode hcount
  refine ⟨f, hf, hparts, ?_⟩
  rw [Fragment.expressions, hsources, List.map_map]
  exact List.map_id expressions

theorem reads_of_ofParts {f : Fragment} (h : ofParts skeleton expressions = .ok f) :
    Reads skeleton.toList f.parts ∧ placeholders f.parts = List.range expressions.length := by
  obtain ⟨hskeleton, hsources⟩ := of_ofSources h
  have hdecode := f.decode_skeleton
  have hplaceholders := f.placeholders_parts
  rw [hskeleton] at hdecode
  rw [hsources, List.length_map] at hplaceholders
  exact ⟨(decode_eq_ok_iff.1 hdecode).1, hplaceholders⟩

/-- A skeleton and expressions make a fragment exactly if the skeleton, read from the left, consists of
plain characters, doubled braces and placeholders that count the expressions. So they do if it is written
from texts with placeholders between them, and then the texts are rendered with the values between them.
An expression is known by a machine word. -/
theorem ofParts_decodes (expressions : List String) (h : expressions.length ≤ Integer.wordCount) :
    (∀ skeleton, (∃ f, ofParts skeleton expressions = .ok f) ↔
      ∃ parts, Reads skeleton.toList parts ∧ placeholders parts = List.range expressions.length) ∧
    ∀ first rest, rest.length = expressions.length →
      ∃ f, ofParts (doubled first ++ numbered 0 rest) expressions = .ok f ∧
        f.expressions = expressions ∧
        ∀ values, values.length = expressions.length →
          f.render values = first ++ interleaved values rest := by
  refine ⟨fun skeleton => ⟨fun ⟨f, hf⟩ => ⟨f.parts, reads_of_ofParts hf⟩, ?_⟩, fun first rest hrest => ?_⟩
  · rintro ⟨parts, hreads, hplaceholders⟩
    obtain ⟨f, hf, -⟩ := exists_ofParts_of_reads h hreads hplaceholders
    exact ⟨f, hf⟩
  · have hreads : Reads (doubled first ++ numbered 0 rest).toList
        (first.toList.map .char ++ numberedParts 0 rest) := by
      rw [String.toList_append]
      exact (reads_numbered 0 rest).doubled first
    have hplaceholders : placeholders (first.toList.map .char ++ numberedParts 0 rest) =
        List.range expressions.length := by
      rw [placeholders_chars, placeholders_numberedParts, hrest, List.range_eq_range']
    obtain ⟨f, hf, hparts, hexpressions⟩ := exists_ofParts_of_reads h hreads hplaceholders
    refine ⟨f, hf, hexpressions, fun values hvalues => ?_⟩
    have hlength : values.length = 0 + rest.length := by omega
    rw [render, fill, hparts, List.foldl_append, foldl_chars, foldl_numberedParts hlength,
      String.ofList_toList, String.empty_append, List.drop_zero]

theorem ofParts_decodes_braces : ["a", "b"].length ≤ Integer.wordCount ∧
    ∃ f, ofParts "\x7b\x7b\x7b0\x7d\x7d\x7d\x7b1\x7dx" ["a", "b"] = .ok f ∧
      f.render ["1", "2"] = "\x7b1\x7d2x" := by
  obtain ⟨f, hf, -, hrender⟩ := (ofParts_decodes ["a", "b"] (by decide)).2 "\x7b" ["\x7d", "x"] rfl
  have hskeleton : doubled "\x7b" ++ numbered 0 ["\x7d", "x"] =
      "\x7b\x7b\x7b0\x7d\x7d\x7d\x7b1\x7dx" := by
    decide +kernel
  rw [hskeleton] at hf
  exact ⟨by decide, f, hf, (hrender ["1", "2"] rfl).trans (by decide +kernel)⟩

end Fragment

end Variorum
