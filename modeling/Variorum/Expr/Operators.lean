import Variorum.Expr.Basic

/-!
# Operators

One table says how tightly the operators bind. Outside parentheses an expression is a flat list of operands
and operators, and the table alone says which of them belong together.
-/

namespace Variorum

inductive Operator
  | binary (op : BinaryOp)
  | negation
  | cast
  deriving DecidableEq, Repr

namespace Operator

/-- The operators, those that bind most loosely first. Binary operators of one row group to the left. -/
def table : List (List Operator) :=
  [[.binary .add, .binary .sub],
   [.binary .mul, .binary .div, .binary .rem],
   [.negation],
   [.cast]]

/-- The row of an operator, counted from one. -/
def level (o : Operator) : Nat :=
  table.findIdx (·.contains o) + 1

end Operator

namespace Expr

/-- A part of an expression outside parentheses, where what stands in parentheses is one operand. -/
inductive Item
  | operand (e : Expr)
  | negation (line : Nat)
  | cast (type : CastType)
  | binary (op : BinaryOp)
  deriving Repr

mutual

/-- Takes an operand and all that belongs to it from the front, with fewer than `n` items. An operator
behind it belongs to it if it binds more tightly than `floor`. -/
def group : Nat → Nat → List Item → Option (Expr × List Item)
  | n + 1, floor, .operand e :: items => climb n floor e items
  | n + 1, floor, .negation line :: items => do
    let (e, items) ← group n (Operator.negation.level - 1) items
    climb n floor (.negation line e) items
  | _, _, _ => none

/-- Goes on from a tree with the operators behind it that bind more tightly than `floor`. -/
def climb : Nat → Nat → Expr → List Item → Option (Expr × List Item)
  | 0, _, _, _ => none
  | n + 1, floor, e, .cast type :: items =>
    if floor < Operator.cast.level then climb n floor (.cast e.line type e) items
    else some (e, .cast type :: items)
  | n + 1, floor, e, .binary op :: items =>
    if floor < (Operator.binary op).level then do
      let (right, items) ← group n (Operator.binary op).level items
      climb n floor (.binary e.line op e right) items
    else some (e, .binary op :: items)
  | _ + 1, _, e, items => some (e, items)

end

/-- The tree of a list of items, if it has one. -/
def tree? (items : List Item) : Option Expr :=
  match group (items.length + 1) 0 items with
  | some (e, []) => some e
  | _ => none

end Expr

end Variorum
