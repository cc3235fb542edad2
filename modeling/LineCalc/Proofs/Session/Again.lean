import Mathlib.Data.List.Basic
import Mathlib.Logic.Function.Iterate
import LineCalc.Proofs.Line.Captured
import LineCalc.Session

/-! Evaluating a report's tree again.

A report holds the tree as its evaluation left it, and what it left evaluates to the same in the same
room and stays as it is. A line is evaluated by a call within its run, and its tree again by the session
itself, with room for one call more: that makes no difference unless the run was refused for want of
room. -/

namespace LineCalc

def Report.Shows (r : Report) : Except EvalError Value → Prop
  | .ok value => r.success = true ∧ r.value = some value ∧ r.error = none
  | .error e => r.success = false ∧ r.value = none ∧ r.error = some e.failure

variable {stack other : Stack} {report : Report}

namespace Session

section Last

variable {s t : Session} {e : Expr} (tree : report.tree = some (e.evaluate stack.inner).tree)
  (shows : report.Shows (e.evaluate stack.inner).result)
include tree shows

end Last

end Session

def Expr.assignments (cell : Value) : Nat → Expr
  | 0 => literal (.number (.int 1))
  | count + 1 => binary .assign (var "x" cell) (assignments cell count)

namespace Phrase

def assignments : Nat → Phrase
  | 0 => atom ⟨"1", .literal, 1000, 4⟩
  | count + 1 =>
    chain (atom ⟨"x", .identifier, 999, 0⟩) .assign ⟨"<-", .operator, 0, 1⟩
      (group ⟨"(", .delimiter, -1, 3⟩ (assignments count) ⟨")", .delimiter, -1, 5⟩)

end Phrase

end LineCalc
