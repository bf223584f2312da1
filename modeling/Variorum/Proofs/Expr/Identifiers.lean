import Variorum.Proofs.Expr.Exactness
import Variorum.Proofs.Expr.RoundTrip
import Variorum.Proofs.Symbols.Signature

/-!
# Names in definitions and in expressions

A definition tests the characters of a name, an expression reads a word that no other rule takes. Both
agree on what a name is, so whatever a signature declares can be written in an expression.
-/

namespace Variorum

/-! ## Sources that are a name -/

namespace Expr

variable {line n : Nat} {source word : String}

/-- Around a name there is nothing but parentheses and blanks. -/
theorem Spells.isIdentifier {l : Stratum} {a b : Cursor} {e : Expr} {lits : List Literal}
    (h : Spells l a b e lits) (he : e = .name n word) : isIdentifier word = true := by
  match h with
  | .name hname =>
      cases he
      exact isIdentifier_iff.2 ⟨hname.1.longest.1, hname.2⟩
  | .integer _ hmeans | .float _ hmeans =>
      subst he
      cases hmeans
  | .slice _ _ _ _ _ _ _ hmeans =>
      subst he
      cases hmeans
  | .text _ | .call .. | .qualifiedCall .. | .cast .. | .negation .. | .product .. | .sum .. => cases he
  | .parens _ hspells _ => exact hspells.isIdentifier he
  | .ofPrimary hspells => exact hspells.isIdentifier he
  | .ofCast hspells => exact hspells.isIdentifier he
  | .ofUnary hspells => exact hspells.isIdentifier he
  | .ofProduct hspells => exact hspells.isIdentifier he

theorem isIdentifier_of_parse (h : parse source line = .ok (.name n word)) :
    isIdentifier word = true := by
  obtain ⟨lits, ⟨b, hspells, -⟩, -⟩ := parse_eq_ok_iff_spelled.1 h
  exact hspells.isIdentifier rfl

theorem parse_name (h : isIdentifier word = true) : parse word line = .ok (.name line word) :=
  (PrintsAs.name h).parse_eq_ok rfl

end Expr

/-! ## Signatures -/

namespace Signature

/-- Whatever a signature declares is a name. -/
theorem isIdentifier_of_parse {s : Signature} {text : String} (h : parse text = .ok s) :
    ∀ x ∈ s.name :: s.args, isIdentifier x = true :=
  (parse_eq_ok_iff.1 h).1.isIdentifier

end Signature

/-! ## What a signature declares -/

namespace Expr

variable {line : Nat} {word : String} {names : List String}

theorem printsAllAs_names (h : ∀ x ∈ names, isIdentifier x = true) :
    PrintsAllAs names fun line => names.map (.name line) := by
  induction names with
  | nil => exact .nil
  | cons x names ih =>
      obtain ⟨hx, hnames⟩ := List.forall_mem_cons.1 h
      have hfirst := (PrintsAs.name hx).mono (rank_le_sum .primary)
      cases names with
      | nil => exact PrintsAllAs.single hfirst
      | cons y names => exact PrintsAllAs.cons hfirst (ih hnames) fun _ => List.cons_ne_nil _ _

theorem nodesOfAll_names : nodesOfAll (names.map (.name line)) = names.map (.name line) := by
  induction names with
  | nil => rfl
  | cons x names ih => rw [List.map_cons, nodesOfAll, ih, nodes, List.singleton_append]

theorem errors_call_names : (call line word (names.map (.name line))).errors = [] := by
  rw [errors, nodes, nodesOfAll_names, List.filterMap_eq_nil_iff]
  exact List.forall_mem_cons.2 ⟨rfl, List.forall_mem_map.2 fun _ _ => rfl⟩

/-- A text is read as the name that it is exactly if it may be declared as one. So the name of a
declared macro and those of its arguments are read as themselves, and the whole signature as the call
in which each argument stands for itself. -/
theorem isIdentifier_iff_parse (line : Nat) :
    (∀ s n, parse s line = .ok (.name n s) ↔ isIdentifier s = true ∧ n = line) ∧
    ∀ text signature, Signature.parse text = .ok signature →
      (∀ x ∈ signature.name :: signature.args, parse x line = .ok (.name line x)) ∧
      parse signature.print line =
        .ok (.call line signature.name (signature.args.map (.name line))) := by
  refine ⟨fun s n => ⟨fun h => ?_, ?_⟩, fun text signature h => ?_⟩
  · have hs := isIdentifier_of_parse h
    rw [parse_name hs] at h
    cases h
    exact ⟨hs, rfl⟩
  · rintro ⟨hs, rfl⟩
    exact parse_name hs
  · have hnames := Signature.isIdentifier_of_parse h
    obtain ⟨hname, hargs⟩ := List.forall_mem_cons.1 hnames
    refine ⟨fun x hx => parse_name (hnames x hx), ?_⟩
    exact (PrintsAs.call hname (printsAllAs_names hargs)).parse_eq_ok errors_call_names

theorem isIdentifier_iff_parse_wrap :
    Signature.parse " wrap( a , as_b )" = .ok ⟨"wrap", ["a", "as_b"]⟩ ∧
      parse "as_b" 3 = .ok (.name 3 "as_b") ∧
      parse "wrap(a, as_b)" 3 = .ok (.call 3 "wrap" [.name 3 "a", .name 3 "as_b"]) := by
  have hparse : Signature.parse " wrap( a , as_b )" = .ok ⟨"wrap", ["a", "as_b"]⟩ := by
    decide +kernel
  obtain ⟨hnames, hcall⟩ := (isIdentifier_iff_parse 3).2 _ _ hparse
  exact ⟨hparse, hnames "as_b" (by decide), hcall⟩

end Expr

end Variorum
