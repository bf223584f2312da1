import Variorum.Evaluation.Evaluator
import Variorum.Proofs.Expr.Quoting
import Variorum.Proofs.Template.Composition

/-!
# Texts in markers

A marker around a literal comes to what the literal displays. So a text that is put between quotes, and
these between the braces of a marker, comes out of the template as it went in, whatever characters it
has.
-/

namespace Variorum.Template

open Marker

variable {source : String} {v : Value}

/-- A marker around a literal is a template that comes to the literal's value in every context. -/
theorem exists_compile_literal (h : Expr.parse source 1 = .ok (.literal 1 v)) :
    ∃ u, compile ("$\x7b" ++ source ++ "\x7d") = .ok u ∧
      ∀ (ev : Evaluator) (ctx : Context), ev.render ctx u = .done v.display := by
  obtain ⟨lits, hspelled, -⟩ := Expr.parse_eq_ok_iff_spelled.1 h
  obtain ⟨n, hfinds⟩ := finds_marker hspelled.composed.enclosed (Expr.exists_not_blank h) 1 []
  have hscan := hfinds.scan_nil
  have htext : ("$\x7b" ++ source ++ "\x7d").toList = '$' :: '{' :: (source.toList ++ ['}']) := by
    simp
  rw [← htext] at hscan
  obtain ⟨f, hf, hparts, hsources⟩ := Fragment.exists_parse_of_sources hscan (Nat.succ_le_succ (Nat.zero_le _))
  -- The tree does not change where blanks around the literal are trimmed, and it stays on its line.
  have htree : Expr.parse (Text.trim source) (1 + (source.toList.takeWhile Text.isBlank).count '\n') =
      .ok (.literal 1 v) := Expr.parse_trim 0 h
  have hread : EmbeddedSource.parseAll f.sources = .ok [.literal 1 v] := by
    rw [hsources]
    exact parseAll_cons htree rfl
  obtain ⟨u, hu, hexprs, rfl⟩ := compile_of_parse hf hread
  refine ⟨u, hu, fun ev ctx => ?_⟩
  have hrender : u.fragment.render [v.display] = v.display := by
    rw [Fragment.render_eq_join hparts]
    exact String.append_empty
  rw [Evaluator.render, Evaluator.renderWith, hsources, hexprs]
  exact congrArg Report.done hrender

/-- Any text can be injected: between quotes, with a backslash before each of its backslashes and double
quotes, it is a literal of that text, and a template of nothing but this literal renders the text. -/
theorem enquoted_rendered (s : String) :
    Expr.parse (Text.enquote s) 1 = .ok (.literal 1 (.text s)) ∧
      ∃ u, compile ("$\x7b" ++ Text.enquote s ++ "\x7d") = .ok u ∧
        ∀ (ev : Evaluator) (ctx : Context), ev.render ctx u = .done s :=
  ⟨Expr.parse_enquote s 1, exists_compile_literal (Expr.parse_enquote s 1)⟩

end Variorum.Template
