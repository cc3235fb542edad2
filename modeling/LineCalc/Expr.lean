import LineCalc.Value
import LineCalc.Operator

/-! Expressions.

An expression is a binary tree. A variable is a named cell of its own tree: nothing is shared
between two cells, even of one name. -/

namespace LineCalc

inductive Expr
  | literal (value : Value)
  | var (name : String) (value : Value)
  | binary (op : Operator) (left right : Expr)
  /-- Something that is no expression in the place of one; `kind` says what it is. -/
  | foreign (kind : String)
  deriving DecidableEq

namespace Expr

def height : Expr → Nat
  | binary _ left right => max left.height right.height + 1
  | _ => 1

/-- The variables with the values of their cells, from left to right. -/
def cells : Expr → List (String × Value)
  | literal _ => []
  | var name value => [(name, value)]
  | binary _ left right => left.cells ++ right.cells
  | foreign _ => []

end Expr

end LineCalc
