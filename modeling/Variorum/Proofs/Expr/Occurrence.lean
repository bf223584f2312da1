import Variorum.Expr.Basic

/-!
# Expressions in expressions

An expression occurs in another one if it is this one or stands somewhere among its parts. These are the
expressions that a traversal visits.
-/

namespace Variorum.Expr

/-- The first expression is the second one or stands somewhere in it. -/
inductive Occurs (e : Expr) : Expr → Prop
  | self : Occurs e e
  | left {line op l r} : Occurs e l → Occurs e (.binary line op l r)
  | right {line op l r} : Occurs e r → Occurs e (.binary line op l r)
  | negated {line operand} : Occurs e operand → Occurs e (.negation line operand)
  | cast {line type operand} : Occurs e operand → Occurs e (.cast line type operand)
  | argument {line callee args arg} : arg ∈ args → Occurs e arg → Occurs e (.call line callee args)
  | qualifiedArgument {line moduleName callee args arg} : arg ∈ args → Occurs e arg →
      Occurs e (.qualifiedCall line moduleName callee args)

variable {e f : Expr}

/-- A traversal visits no expression but those that occur. -/
theorem occurs_of_mem_nodes : (f : Expr) → e ∈ f.nodes → Occurs e f
  | .binary _ _ l r, h => by
      simp only [nodes, List.mem_cons, List.mem_append] at h
      rcases h with rfl | h | h
      · exact .self
      · exact .left (occurs_of_mem_nodes l h)
      · exact .right (occurs_of_mem_nodes r h)
  | .negation _ operand, h => by
      simp only [nodes, List.mem_cons] at h
      rcases h with rfl | h
      · exact .self
      · exact .negated (occurs_of_mem_nodes operand h)
  | .cast _ _ operand, h => by
      simp only [nodes, List.mem_cons] at h
      rcases h with rfl | h
      · exact .self
      · exact .cast (occurs_of_mem_nodes operand h)
  | .call _ _ args, h => by
      simp only [nodes, nodesOfAll_eq_flatMap, List.mem_cons, List.mem_flatMap] at h
      rcases h with rfl | ⟨arg, harg, h⟩
      · exact .self
      · exact .argument harg (occurs_of_mem_nodes arg h)
  | .qualifiedCall _ _ _ args, h => by
      simp only [nodes, nodesOfAll_eq_flatMap, List.mem_cons, List.mem_flatMap] at h
      rcases h with rfl | ⟨arg, harg, h⟩
      · exact .self
      · exact .qualifiedArgument harg (occurs_of_mem_nodes arg h)
  | .name _ _, h | .literal _ _, h | .slice _ _, h | .invalid _, h => by
      rw [nodes, List.mem_singleton] at h
      subst h
      exact .self

theorem mem_nodes_self (e : Expr) : e ∈ e.nodes := by
  cases e <;> simp [nodes]

theorem mem_nodesOfAll {arg : Expr} {args : List Expr} (harg : arg ∈ args) (he : e ∈ arg.nodes) :
    e ∈ nodesOfAll args := by
  rw [nodesOfAll_eq_flatMap]
  exact List.mem_flatMap_of_mem harg he

theorem Occurs.mem_nodes (h : Occurs e f) : e ∈ f.nodes := by
  induction h with
  | self => exact mem_nodes_self e
  | left _ ih => simp [nodes, ih]
  | right _ ih => simp [nodes, ih]
  | negated _ ih => simp [nodes, ih]
  | cast _ ih => simp [nodes, ih]
  | argument harg _ ih => simp [nodes, mem_nodesOfAll harg ih]
  | qualifiedArgument harg _ ih => simp [nodes, mem_nodesOfAll harg ih]

/-- A traversal visits exactly the expressions that occur. -/
theorem mem_nodes_iff : e ∈ f.nodes ↔ Occurs e f :=
  ⟨occurs_of_mem_nodes f, Occurs.mem_nodes⟩

end Variorum.Expr
