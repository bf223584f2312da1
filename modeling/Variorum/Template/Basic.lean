import Variorum.Expr.Parser
import Variorum.Template.Fragment

/-!
# Templates

A fragment together with the trees of its expressions.
-/

namespace Variorum

def EmbeddedSource.parse (s : EmbeddedSource) : Except CompileError Expr :=
  match Expr.parse s.text s.line with
  | .ok e => .ok e
  | .error e => .error (.unreadable s.text e)

/-- Reads embedded expressions in order, up to the first that cannot be read. -/
def EmbeddedSource.parseAll : List EmbeddedSource → Except CompileError (List Expr)
  | [] => .ok []
  | s :: ss => do
    let e ← s.parse
    return e :: (← parseAll ss)

structure Template where
  fragment : Fragment
  exprs : List Expr
  parse_sources : EmbeddedSource.parseAll fragment.sources = .ok exprs

namespace Template

/-- Templates of one fragment are the same, since its sources determine their trees. -/
instance : DecidableEq Template := fun t u =>
  if h : t.fragment = u.fragment then
    isTrue (by
      obtain ⟨f, es, he⟩ := t
      obtain ⟨g, fs, hf⟩ := u
      cases h
      rw [he] at hf
      cases hf
      rfl)
  else isFalse fun hc => h (congrArg fragment hc)

def ofFragment (f : Fragment) : Except CompileError Template :=
  match h : EmbeddedSource.parseAll f.sources with
  | .ok exprs => .ok ⟨f, exprs, h⟩
  | .error e => .error e

def compile (raw : String) : Except CompileError Template := do
  ofFragment (← Fragment.parse raw)

def nodes (t : Template) : List Expr :=
  t.exprs.flatMap Expr.nodes

end Template

end Variorum
