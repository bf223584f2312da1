import Variorum.Expr.Basic

/-!
# Trees on other lines

A tree is moved to other lines node by node; nothing else of it changes.
-/

namespace Variorum.Expr

mutual

/-- The same tree on other lines. -/
def mapLines (f : Nat → Nat) : Expr → Expr
  | .name line identifier => .name (f line) identifier
  | .literal line value => .literal (f line) value
  | .binary line op left right => .binary (f line) op (mapLines f left) (mapLines f right)
  | .negation line operand => .negation (f line) (mapLines f operand)
  | .call line callee args => .call (f line) callee (mapLinesOfAll f args)
  | .qualifiedCall line moduleName callee args =>
    .qualifiedCall (f line) moduleName callee (mapLinesOfAll f args)
  | .cast line type operand => .cast (f line) type (mapLines f operand)
  | .slice line selection => .slice (f line) selection
  | .invalid error => .invalid { error with line := f error.line }

def mapLinesOfAll (f : Nat → Nat) : List Expr → List Expr
  | [] => []
  | e :: es => mapLines f e :: mapLinesOfAll f es

end

theorem line_mapLines (f : Nat → Nat) (e : Expr) : (e.mapLines f).line = f e.line := by
  cases e <;> rfl

mutual

theorem nodes_mapLines (f : Nat → Nat) : (e : Expr) → (e.mapLines f).nodes = e.nodes.map (mapLines f)
  | .name _ _ => rfl
  | .literal _ _ => rfl
  | .slice _ _ => rfl
  | .invalid _ => rfl
  | .binary _ _ left right => by
      simp only [mapLines, nodes, List.map_cons, List.map_append]
      rw [nodes_mapLines f left, nodes_mapLines f right]
  | .negation _ operand => by
      simp only [mapLines, nodes, List.map_cons]
      rw [nodes_mapLines f operand]
  | .cast _ _ operand => by
      simp only [mapLines, nodes, List.map_cons]
      rw [nodes_mapLines f operand]
  | .call _ _ args => by
      simp only [mapLines, nodes, List.map_cons]
      rw [nodesOfAll_mapLines f args]
  | .qualifiedCall _ _ _ args => by
      simp only [mapLines, nodes, List.map_cons]
      rw [nodesOfAll_mapLines f args]

theorem nodesOfAll_mapLines (f : Nat → Nat) : (es : List Expr) →
    nodesOfAll (mapLinesOfAll f es) = (nodesOfAll es).map (mapLines f)
  | [] => rfl
  | e :: es => by
      simp only [mapLinesOfAll, nodesOfAll, List.map_append]
      rw [nodes_mapLines f e, nodesOfAll_mapLines f es]

end

end Variorum.Expr
