import LineCalc.Expr
import LineCalc.Stack
import LineCalc.Value.Arithmetic

/-! Evaluation.

The left side is evaluated before the right one. An assignment evaluates its right side only and
writes the value into the cell on its left, so that evaluation gives a value, a changed expression
and the writes made. What was written before a failure stays written. -/

namespace LineCalc

structure Write where
  name : String
  value : Value
  deriving DecidableEq

structure Evaluation where
  result : Except EvalError Value
  /-- The expression with its cells as the evaluation left them. -/
  tree : Expr
  writes : List Write

namespace Expr

/-- What comes of a node that takes so many calls, if there is room for them. -/
def grant (room calls : Nat) (result : Except EvalError Value) : Except EvalError Value :=
  if calls ≤ room then result else .error .tooDeep

/-- Evaluates an expression with so many calls open at once. A node takes one call, an assignment a second
one for its target. -/
def evaluateWithin : (room : Nat) → Expr → Evaluation
  | room, literal value => ⟨grant room 1 (.ok value), literal value, []⟩
  | room, var name value => ⟨grant room 1 (.ok value), var name value, []⟩
  | room, foreign kind => ⟨grant room 1 (.error (.unknownNode kind)), foreign kind, []⟩
  | room, binary .assign (var name old) right =>
    -- Where there is no room for an operation, there is none for its sides either, and they refuse.
    let source := evaluateWithin (room - 2) right
    match source.result with
    | .error e => ⟨.error e, binary .assign (var name old) source.tree, source.writes⟩
    | .ok value =>
      ⟨.ok value, binary .assign (var name value) source.tree, source.writes ++ [⟨name, value⟩]⟩
  | room, binary .assign left right =>
    ⟨grant room 2 (.error .targetNotVariable), binary .assign left right, []⟩
  | room, binary op left right =>
    let first := evaluateWithin (room - 1) left
    match first.result with
    | .error e => ⟨.error e, binary op first.tree right, first.writes⟩
    | .ok a =>
      let second := evaluateWithin (room - 1) right
      ⟨second.result.bind (op.apply a), binary op first.tree second.tree,
        first.writes ++ second.writes⟩

def evaluate (stack : Stack) (e : Expr) : Evaluation := e.evaluateWithin stack.nodeRoom

end Expr

end LineCalc
