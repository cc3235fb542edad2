import LineCalc.Proofs.Expr.Cells

namespace LineCalc

namespace Expr

/-- Makes writes anew, each in the next cell that is assigned to, and keeps those for which there is
no cell. No cell is come to through an assignment whose target is no variable. -/
def replayFrom : Expr → List Write → Expr × List Write
  | binary .assign (var name old) right, writes =>
    match right.replayFrom writes with
    | (source, []) => (binary .assign (var name old) source, [])
    | (source, write :: later) => (binary .assign (var write.name write.value) source, later)
  | binary .assign left right, writes => (binary .assign left right, writes)
  | binary op left right, writes =>
    let first := left.replayFrom writes
    let second := right.replayFrom first.2
    (binary op first.1 second.1, second.2)
  | e, writes => (e, writes)

def replay (e : Expr) (writes : List Write) : Expr := (e.replayFrom writes).1

section Steps

variable {left right source : Expr} {writes later : List Write}

theorem replayFrom_assign_nil (name : String) (old : Value)
    (replayed : right.replayFrom writes = (source, [])) :
    (binary .assign (var name old) right).replayFrom writes =
      (binary .assign (var name old) source, []) := by
  simp only [replayFrom, replayed]

theorem replayFrom_assign_cons (name : String) (old : Value) {write : Write}
    (replayed : right.replayFrom writes = (source, write :: later)) :
    (binary .assign (var name old) right).replayFrom writes =
      (binary .assign (var write.name write.value) source, later) := by
  simp only [replayFrom, replayed]

theorem replayFrom_assign_other (right : Expr) (writes : List Write)
    (target : left.isVariable = false) :
    (binary .assign left right).replayFrom writes = (binary .assign left right, writes) := by
  cases left with
  | var name value => simp [isVariable] at target
  | _ => rfl

theorem replayFrom_binary {op : Operator} (compute : op ≠ .assign) {first second : Expr}
    {between : List Write} (replayedLeft : left.replayFrom writes = (first, between))
    (replayedRight : right.replayFrom between = (second, later)) :
    (binary op left right).replayFrom writes = (binary op first second, later) := by
  cases op with
  | assign => contradiction
  | _ => simp only [replayFrom, replayedLeft, replayedRight]

end Steps

theorem replayFrom_nil (e : Expr) : e.replayFrom [] = (e, []) := by
  induction e with
  | literal value => rfl
  | var name value => rfl
  | foreign kind => rfl
  | binary op left right ihLeft ihRight =>
      cases operation op left with
      | assign name old => exact replayFrom_assign_nil name old ihRight
      | refuse target => exact replayFrom_assign_other right [] target
      | compute compute => exact replayFrom_binary compute ihLeft ihRight

/-- An evaluation that gives a value comes to every cell, and leaves what is written later to the
cells behind. -/
theorem replayFrom_append {e : Expr} {room : Nat} {value : Value}
    (came : (e.evaluateWithin room).result = .ok value) (later : List Write) :
    e.replayFrom ((e.evaluateWithin room).writes ++ later) =
      ((e.evaluateWithin room).tree, later) := by
  induction e generalizing room value later with
  | literal value => rfl
  | var name value => rfl
  | foreign kind => rfl
  | binary op left right ihLeft ihRight =>
      cases operation op left with
      | assign name old =>
          rw [result_assign] at came
          rw [evaluateWithin_assign, came]
          simp only [List.append_assoc]
          exact replayFrom_assign_cons name old (ihRight came _)
      | refuse target =>
          rw [evaluateWithin_assign_other _ _ _ target]
          exact replayFrom_assign_other right later target
      | compute compute =>
          rw [result_binary _ _ _ compute] at came
          rw [evaluateWithin_binary _ _ _ compute]
          cases first : (left.evaluateWithin (room - 1)).result with
          | error error =>
              rw [first] at came
              contradiction
          | ok a =>
              rw [first] at came
              cases second : (right.evaluateWithin (room - 1)).result with
              | error error =>
                  simp only [Except.bind, second] at came
                  contradiction
              | ok b =>
                  simp only [List.append_assoc]
                  exact replayFrom_binary compute (ihLeft first _) (ihRight second _)

/-- Whatever an evaluation comes to, its writes tell what it leaves of the expression. -/
theorem replayFrom_writes (e : Expr) (room : Nat) :
    e.replayFrom (e.evaluateWithin room).writes = ((e.evaluateWithin room).tree, []) := by
  induction e generalizing room with
  | literal value => rfl
  | var name value => rfl
  | foreign kind => rfl
  | binary op left right ihLeft ihRight =>
      cases operation op left with
      | assign name old =>
          rw [evaluateWithin_assign]
          cases came : (right.evaluateWithin (room - 2)).result with
          | error error => exact replayFrom_assign_nil name old (ihRight _)
          | ok value => exact replayFrom_assign_cons name old (replayFrom_append came _)
      | refuse target =>
          rw [evaluateWithin_assign_other _ _ _ target]
          exact replayFrom_assign_other right [] target
      | compute compute =>
          rw [evaluateWithin_binary _ _ _ compute]
          cases first : (left.evaluateWithin (room - 1)).result with
          | error error => exact replayFrom_binary compute (ihLeft _) (replayFrom_nil right)
          | ok a => exact replayFrom_binary compute (replayFrom_append first _) (ihRight _)

theorem replay_writes (e : Expr) (room : Nat) :
    e.replay (e.evaluateWithin room).writes = (e.evaluateWithin room).tree :=
  congrArg Prod.fst (replayFrom_writes e room)

end Expr

end LineCalc
