import Variorum.Expr.Basic
import Variorum.Text.Quoted

/-!
# Expressions as source

An expression is written back with parentheses only where reading would group it otherwise.
-/

namespace Variorum

/-- A literal as source: a text in quotes, a number as it is displayed. -/
def Value.source : Value → String
  | .text s => Text.quote s
  | v => v.display

namespace Expr

def isBinary : Expr → Bool
  | .binary .. => true
  | _ => false

/-- Whether an operand of `op` has to stand in parentheses: it binds more loosely, or as loosely and
on the right. -/
def needsParens (op : BinaryOp) (onRight : Bool) : Expr → Bool
  | .binary _ inner _ _ => !inner.isProduct && op.isProduct || onRight && inner.isProduct == op.isProduct
  | _ => false

/-- Whether an expression has to stand in parentheses before a cast. -/
def isOperation : Expr → Bool
  | .binary .. | .negation .. => true
  | _ => false

def parens (needed : Bool) (s : String) : String :=
  if needed then "(" ++ s ++ ")" else s

mutual

def print : Expr → String
  | .name _ identifier => identifier
  | .literal _ value => value.source
  | .binary _ op left right =>
    parens (needsParens op false left) left.print ++ " " ++ op.symbol.toString ++ " " ++
      parens (needsParens op true right) right.print
  | .negation _ operand => "-" ++ parens operand.isBinary operand.print
  | .call _ callee args => callee ++ "(" ++ ", ".intercalate (printAll args) ++ ")"
  | .qualifiedCall _ moduleName callee args =>
    moduleName ++ "." ++ callee ++ "(" ++ ", ".intercalate (printAll args) ++ ")"
  | .cast _ type operand => parens operand.isOperation operand.print ++ " as " ++ type.keyword
  | .slice _ selection => selection.key
  | .invalid _ => "<error>"

def printAll : List Expr → List String
  | [] => []
  | e :: es => e.print :: printAll es

end

end Expr

end Variorum
