import Mathlib.Data.List.Forall2
import Variorum.Proofs.Expr.Soundness
import Variorum.Proofs.Template.Composition

/-!
# The trees of a template

A template has one tree for each of its sources, and since the trees were read from the sources, there
is no invalid leaf in them.
-/

namespace Variorum.Template

variable {t : Template}

theorem forall₂_of_parseAll {sources : List EmbeddedSource} {es : List Expr}
    (h : EmbeddedSource.parseAll sources = .ok es) :
    List.Forall₂ (fun s e => Expr.parse s.text s.line = .ok e) sources es := by
  induction sources generalizing es with
  | nil =>
      cases h
      exact .nil
  | cons s sources ih =>
      obtain ⟨e, he, h⟩ := Except.bind_eq_ok.1 h
      obtain ⟨es', hes, h⟩ := Except.bind_eq_ok.1 h
      cases h
      exact .cons (parse_eq_ok_iff.1 he) (ih hes)

theorem length_sources (t : Template) : t.fragment.sources.length = t.exprs.length :=
  (forall₂_of_parseAll t.parse_sources).length_eq

/-- Every tree has its source beside it. -/
theorem map_zip_sources (t : Template) : (t.fragment.sources.zip t.exprs).map (·.2) = t.exprs :=
  List.map_snd_zip (Nat.le_of_eq t.length_sources.symm)

theorem nodesOfAll_exprs (t : Template) : Expr.nodesOfAll t.exprs = t.nodes :=
  Expr.nodesOfAll_eq_flatMap t.exprs

theorem errors_of_mem_exprs {e : Expr} (he : e ∈ t.exprs) : e.errors = [] := by
  rw [← t.map_zip_sources] at he
  obtain ⟨⟨source, e⟩, hmem, rfl⟩ := List.mem_map.1 he
  have hparse := List.forall₂_iff_zip.1 (forall₂_of_parseAll t.parse_sources)
  exact (Expr.parse_eq_ok_iff.1 (hparse.2 hmem)).2

theorem invalid_not_mem_nodes {error : ParseError} : .invalid error ∉ t.nodes := by
  intro h
  obtain ⟨e, he, h⟩ := List.mem_flatMap.1 h
  exact Option.some_ne_none _ (List.filterMap_eq_nil_iff.1 (errors_of_mem_exprs he) _ h)

end Variorum.Template
