import Mathlib.Data.Set.Basic
import Mathlib.Order.Bounds.Defs
import Variorum.Proofs.Expr.Occurrence
import Variorum.Proofs.Product.Reachability

/-!
# The references of a subject are the least set of names

Names are followed by a worklist that visits the bodies of one pending macro after the other. It comes to
an end on every table, also where macros refer to each other, and ends with the least set of names that
holds what the subject's own templates refer to and, with a macro, what its bodies refer to.
-/

namespace Variorum

/-! ## What a template refers to -/

namespace Template

/-- An identifier of this name stands in one of the expressions. -/
def Names (t : Template) (name : String) : Prop :=
  ∃ e ∈ t.exprs, ∃ line, Expr.Occurs (.name line name) e

/-- A call of this name stands in one of the expressions. -/
def Calls (t : Template) (name : String) : Prop :=
  ∃ e ∈ t.exprs, ∃ line args, Expr.Occurs (.call line name args) e

end Template

/-- The names that the subject's own templates refer to are in the set, and with a macro those that its
bodies refer to. An argument of the macro is no name that its bodies refer to. -/
structure Subject.RefersInto (s : Subject) (names : Set String) : Prop where
  own : ∀ t ∈ s.templates, ∀ x, t.Names x ∨ t.Calls x → x ∈ names
  bodies : ∀ name ∈ names, ∀ m, s.symbols.macro? name = some m → ∀ body ∈ m.bodies, ∀ x,
    body.Names x ∧ x ∉ m.signature.args ∨ body.Calls x → x ∈ names

namespace References

variable {symbols : SymbolTable} {r r' : References} {args : List String} {templates : List Template}
  {name x : String} {e : Expr} {steps : Nat} {names : Set String} {s : Subject}

theorem nameOf?_eq_some : nameOf? args e = some x ↔
    (∃ line, e = .name line x ∧ x ∉ args) ∨ ∃ line es, e = .call line x es := by
  cases e <;> simp [nameOf?]
  grind

theorem mentions_iff : Mentions args templates x ↔
    ∃ t ∈ templates, t.Names x ∧ x ∉ args ∨ t.Calls x := by
  simp only [Mentions, List.mem_flatMap, Template.nodes, nameOf?_eq_some, Expr.mem_nodes_iff,
    Template.Names, Template.Calls]
  grind

/-! ## What the worklist reaches -/

/-- Only names of the set have been reached, and what is pending has been reached. -/
structure Keeps (names : Set String) (r : References) : Prop where
  names : ∀ x ∈ r.names, x ∈ names
  pending : r.pending ⊆ r.names

theorem Keeps.add (h : Keeps names r) (hname : name ∈ names) :
    Keeps names (References.add symbols r name) where
  names x hx := (mem_names_add.1 hx).elim (fun he => he ▸ hname) (h.names x)
  pending := by
    unfold References.add
    split
    · exact h.pending
    · dsimp only
      split
      · exact List.cons_subset_cons name h.pending
      · exact List.subset_cons_of_subset name h.pending

theorem Keeps.visit (h : Keeps names r) (hmentions : ∀ x, Mentions args templates x → x ∈ names) :
    Keeps names (References.visit symbols args r templates) :=
  visit_keeps h fun _ x hx hr => hr.add (hmentions x hx)

theorem Keeps.goes (h : Keeps names r) (hrefers : s.RefersInto names) (hgoes : Goes s.symbols r r') :
    Keeps names r' := by
  obtain ⟨name, rest, hpending, hstep⟩ := hgoes.cases
  have hmem : name ∈ names := h.names name (h.pending (hpending ▸ List.mem_cons_self))
  have hrest : Keeps names { r with pending := rest } :=
    ⟨h.names, fun x hx => h.pending (hpending ▸ List.mem_cons_of_mem name hx)⟩
  rcases hstep with ⟨-, rfl⟩ | ⟨m, hm, rfl⟩
  · exact hrest
  · refine hrest.visit fun x hx => ?_
    obtain ⟨body, hbody, hx⟩ := mentions_iff.1 hx
    exact hrefers.bodies name hmem m hm body hbody x hx

theorem Keeps.runs (h : Keeps names r) (hrefers : s.RefersInto names)
    (hruns : Relation.ReflTransGen (Goes s.symbols) r r') : Keeps names r' := by
  induction hruns with
  | refl => exact h
  | tail _ hgoes ih => exact ih.goes hrefers hgoes

/-! ## The least set -/

theorem Keeps.start (hrefers : s.RefersInto names) : Keeps names (References.start s) := by
  refine Keeps.visit ⟨fun x hx => absurd hx List.not_mem_nil, List.nil_subset _⟩ fun x hx => ?_
  obtain ⟨t, ht, hx⟩ := mentions_iff.1 hx
  exact hrefers.own t ht x (hx.imp_left And.left)

theorem refersInto_collect (s : Subject) : s.RefersInto {x | x ∈ collect s} where
  own t ht x hx := by
    refine mem_collect_of_mentions (mentions_iff.2 ⟨t, ht, hx.imp_left fun h => ⟨h, ?_⟩⟩)
    exact List.not_mem_nil
  bodies name hname m hm body hbody x hx :=
    collect_closed s name hname m hm x (mentions_iff.2 ⟨body, hbody, hx⟩)

/-- The worklist ends on every table, and the names that it has reached then are the least set that holds
what the subject's own templates refer to and, with each macro, what its bodies refer to. -/
theorem collect_isLeast (s : Subject) :
    (WellFounded fun r' r => Goes s.symbols r r') ∧
    (∃ r, Relation.ReflTransGen (Goes s.symbols) (start s) r ∧ next? s.symbols r = none ∧
      collect s = r.names) ∧
    IsLeast {names : Set String | s.RefersInto names} {x | x ∈ collect s} := by
  refine ⟨goes_wellFounded s.symbols, collect_runs s, refersInto_collect s, ?_⟩
  intro names hrefers x hx
  obtain ⟨r, hruns, -, hcollect⟩ := collect_runs s
  have hmem : x ∈ r.names := hcollect ▸ hx
  exact ((Keeps.start hrefers).runs hrefers hruns).names x hmem

end References

end Variorum
