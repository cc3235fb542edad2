import LineCalc.Expr.Evaluate

/-! Cells and the evaluation of expressions.

A cell is read where it stands and nowhere else, so a value that is written is not read again while
the expression is evaluated. Three facts follow: assignments can be erased, names do not matter, and
a second evaluation gives what the first one gave and leaves the cells as they are. -/

namespace LineCalc

namespace Expr

/-- Puts the value of every cell that is read in its place, and for an assignment to a variable the
value that is assigned. -/
def erase : Expr → Expr
  | literal value => literal value
  | var _ value => literal value
  | binary .assign (var _ _) right => right.erase
  | binary op left right => binary op left.erase right.erase
  | foreign kind => foreign kind

def rename (f : String → String) : Expr → Expr
  | literal value => literal value
  | var name value => var (f name) value
  | binary op left right => binary op (left.rename f) (right.rename f)
  | foreign kind => foreign kind

def isVariable : Expr → Bool
  | var _ _ => true
  | _ => false

inductive Operation : Operator → Expr → Prop
  | assign (name : String) (old : Value) : Operation .assign (var name old)
  | refuse {left : Expr} (target : left.isVariable = false) : Operation .assign left
  | compute {op : Operator} {left : Expr} (compute : op ≠ .assign) : Operation op left

theorem operation (op : Operator) (left : Expr) : Operation op left := by
  by_cases compute : op = .assign
  · subst compute
    cases left with
    | var name old => exact .assign name old
    | _ => exact .refuse rfl
  · exact .compute compute

def frames : Expr → Nat
  | literal _ => 1
  | var _ _ => 1
  | binary .assign (var _ _) right => right.frames + 2
  | binary .assign _ _ => 2
  | binary _ left right => max left.frames right.frames + 1
  | foreign _ => 1

section Steps

variable (room : Nat) (left right : Expr)

theorem grant_of_le {room calls : Nat} (enough : calls ≤ room) (result : Except EvalError Value) :
    grant room calls result = result :=
  if_pos enough

theorem grant_of_lt {room calls : Nat} (few : room < calls) (result : Except EvalError Value) :
    grant room calls result = .error .tooDeep :=
  if_neg (Nat.not_le.mpr few)

theorem lt_of_grant {room calls : Nat} {result : Except EvalError Value}
    (deep : grant room calls result = .error .tooDeep) (other : result ≠ .error .tooDeep) :
    room < calls := by
  apply Nat.lt_of_not_le
  intro enough
  rw [grant_of_le enough] at deep
  exact other deep

theorem evaluateWithin_assign (name : String) (old : Value) :
    (binary .assign (var name old) right).evaluateWithin room =
      match (right.evaluateWithin (room - 2)).result with
      | .error e =>
        ⟨.error e, binary .assign (var name old) (right.evaluateWithin (room - 2)).tree,
          (right.evaluateWithin (room - 2)).writes⟩
      | .ok value =>
        ⟨.ok value, binary .assign (var name value) (right.evaluateWithin (room - 2)).tree,
          (right.evaluateWithin (room - 2)).writes ++ [⟨name, value⟩]⟩ := rfl

theorem result_assign (name : String) (old : Value) :
    ((binary .assign (var name old) right).evaluateWithin room).result =
      (right.evaluateWithin (room - 2)).result := by
  rw [evaluateWithin_assign]
  cases (right.evaluateWithin (room - 2)).result <;> rfl

theorem evaluateWithin_assign_other (target : left.isVariable = false) :
    (binary .assign left right).evaluateWithin room =
      ⟨grant room 2 (.error .targetNotVariable), binary .assign left right, []⟩ := by
  cases left with
  | var name value => simp [isVariable] at target
  | _ => rfl

theorem evaluateWithin_binary {op : Operator} (compute : op ≠ .assign) :
    (binary op left right).evaluateWithin room =
      match (left.evaluateWithin (room - 1)).result with
      | .error e =>
        ⟨.error e, binary op (left.evaluateWithin (room - 1)).tree right,
          (left.evaluateWithin (room - 1)).writes⟩
      | .ok a =>
        ⟨(right.evaluateWithin (room - 1)).result.bind (op.apply a),
          binary op (left.evaluateWithin (room - 1)).tree (right.evaluateWithin (room - 1)).tree,
          (left.evaluateWithin (room - 1)).writes ++ (right.evaluateWithin (room - 1)).writes⟩ := by
  cases op with
  | assign => contradiction
  | _ => rfl

theorem result_binary {op : Operator} (compute : op ≠ .assign) :
    ((binary op left right).evaluateWithin room).result =
      (left.evaluateWithin (room - 1)).result.bind fun a =>
        (right.evaluateWithin (room - 1)).result.bind (op.apply a) := by
  rw [evaluateWithin_binary room left right compute]
  cases (left.evaluateWithin (room - 1)).result <;> rfl

theorem frames_assign_other (target : left.isVariable = false) :
    (binary .assign left right).frames = 2 := by
  cases left with
  | var name value => simp [isVariable] at target
  | _ => rfl

theorem frames_binary {op : Operator} (compute : op ≠ .assign) :
    (binary op left right).frames = max left.frames right.frames + 1 := by
  cases op with
  | assign => contradiction
  | _ => rfl

end Steps

theorem evaluateWithin_of_frames_le {e : Expr} {room more : Nat} (low : e.frames ≤ room)
    (le : room ≤ more) : e.evaluateWithin more = e.evaluateWithin room := by
  induction e generalizing room more with
  | binary op left right ihLeft ihRight =>
      cases operation op left with
      | assign name old =>
          rw [frames] at low
          have source : right.evaluateWithin (more - 2) = right.evaluateWithin (room - 2) :=
            ihRight (by omega) (by omega)
          rw [evaluateWithin_assign, evaluateWithin_assign, source]
      | refuse target =>
          rw [frames_assign_other left right target] at low
          rw [evaluateWithin_assign_other _ _ _ target, evaluateWithin_assign_other _ _ _ target,
            grant_of_le low, grant_of_le (Nat.le_trans low le)]
      | compute compute =>
          rw [frames_binary left right compute] at low
          have first : left.evaluateWithin (more - 1) = left.evaluateWithin (room - 1) :=
            ihLeft (by omega) (by omega)
          have second : right.evaluateWithin (more - 1) = right.evaluateWithin (room - 1) :=
            ihRight (by omega) (by omega)
          rw [evaluateWithin_binary _ _ _ compute, evaluateWithin_binary _ _ _ compute, first, second]
  | _ =>
      rw [frames] at low
      simp only [evaluateWithin, grant_of_le low, grant_of_le (Nat.le_trans low le)]

/-- An evaluation that is not refused for want of room comes to the same with more of it. -/
theorem evaluateWithin_of_shallow {e : Expr} {room more : Nat} (le : room ≤ more)
    (shallow : (e.evaluateWithin room).result ≠ .error .tooDeep) :
    e.evaluateWithin more = e.evaluateWithin room := by
  induction e generalizing room more with
  | binary op left right ihLeft ihRight =>
      cases operation op left with
      | assign name old =>
          rw [result_assign] at shallow
          have source : right.evaluateWithin (more - 2) = right.evaluateWithin (room - 2) :=
            ihRight (by omega) shallow
          rw [evaluateWithin_assign, evaluateWithin_assign, source]
      | refuse target =>
          rw [evaluateWithin_assign_other _ _ _ target] at shallow ⊢
          rw [evaluateWithin_assign_other _ _ _ target]
          by_cases enough : 2 ≤ room
          · rw [grant_of_le enough, grant_of_le (Nat.le_trans enough le)]
          · exact absurd (grant_of_lt (by omega) _) shallow
      | compute compute =>
          rw [result_binary _ _ _ compute] at shallow
          have first : left.evaluateWithin (more - 1) = left.evaluateWithin (room - 1) := by
            refine ihLeft (by omega) fun deep => shallow ?_
            rw [deep]
            rfl
          rw [evaluateWithin_binary _ _ _ compute, evaluateWithin_binary _ _ _ compute, first]
          cases value : (left.evaluateWithin (room - 1)).result with
          | error error => rfl
          | ok a =>
              have second : right.evaluateWithin (more - 1) = right.evaluateWithin (room - 1) := by
                refine ihRight (by omega) fun deep => shallow ?_
                rw [value, deep]
                rfl
              rw [second]
  | _ =>
      by_cases enough : 1 ≤ room
      · simp only [evaluateWithin, grant_of_le enough, grant_of_le (Nat.le_trans enough le)]
      · exact absurd (grant_of_lt (by omega) _) shallow

theorem isVariable_erase (e : Expr) : e.erase.isVariable = false := by
  fun_induction erase e with
  | case3 name value right ih => exact ih
  | _ => rfl

theorem erase_binary {op : Operator} {left : Expr} (right : Expr)
    (keep : op ≠ .assign ∨ left.isVariable = false) :
    (binary op left right).erase = binary op left.erase right.erase := by
  cases left with
  | var name value =>
      have compute : op ≠ .assign := by simpa [isVariable] using keep
      cases op with
      | assign => contradiction
      | _ => rfl
  | _ => cases op <;> rfl

theorem result_erase {e : Expr} {room more : Nat} (le : room ≤ more)
    (shallow : (e.evaluateWithin room).result ≠ .error .tooDeep) :
    (e.erase.evaluateWithin more).result = (e.evaluateWithin room).result := by
  induction e generalizing room more with
  | binary op left right ihLeft ihRight =>
      cases operation op left with
      | assign name old =>
          -- An assignment to a variable takes calls that its erasure does not take.
          rw [result_assign] at shallow ⊢
          exact ihRight (by omega) shallow
      | refuse target =>
          have refused : (binary .assign left right).evaluateWithin more =
              (binary .assign left right).evaluateWithin room := evaluateWithin_of_shallow le shallow
          rw [← refused, erase_binary right (.inr target), evaluateWithin_assign_other _ _ _ target,
            evaluateWithin_assign_other _ _ _ left.isVariable_erase]
      | compute compute =>
          rw [erase_binary right (.inl compute), result_binary _ _ _ compute]
          rw [result_binary _ _ _ compute] at shallow ⊢
          have first : (left.erase.evaluateWithin (more - 1)).result =
              (left.evaluateWithin (room - 1)).result := by
            refine ihLeft (by omega) fun deep => shallow ?_
            rw [deep]
            rfl
          rw [first]
          cases value : (left.evaluateWithin (room - 1)).result with
          | error error => rfl
          | ok a =>
              have second : (right.erase.evaluateWithin (more - 1)).result =
                  (right.evaluateWithin (room - 1)).result := by
                refine ihRight (by omega) fun deep => shallow ?_
                rw [value, deep]
                rfl
              simp only [Except.bind, second]
  | literal value | foreign kind => rw [erase, evaluateWithin_of_shallow le shallow]
  | var name value =>
      have same : (var name value).evaluateWithin more = (var name value).evaluateWithin room :=
        evaluateWithin_of_shallow le shallow
      rw [← same]
      rfl

theorem isVariable_rename (f : String → String) (e : Expr) :
    (e.rename f).isVariable = e.isVariable := by
  cases e <;> rfl

theorem result_rename (f : String → String) (e : Expr) (room : Nat) :
    ((e.rename f).evaluateWithin room).result = (e.evaluateWithin room).result := by
  induction e generalizing room with
  | literal value => rfl
  | var name value => rfl
  | foreign kind => rfl
  | binary op left right ihLeft ihRight =>
      cases operation op left with
      | assign name old =>
          rw [rename, rename, result_assign, result_assign, ihRight]
      | refuse target =>
          have renamed : (left.rename f).isVariable = false := by
            rw [isVariable_rename, target]
          rw [rename, evaluateWithin_assign_other _ _ _ target,
            evaluateWithin_assign_other _ _ _ renamed]
      | compute compute =>
          rw [rename, result_binary _ _ _ compute, result_binary _ _ _ compute, ihLeft, ihRight]

/-- There is no environment: an expression comes to what it comes to with its assignments erased,
unless it is too deep for the evaluation, and names do not matter, be they changed by a rule or one
by one. -/
theorem evaluate_erase (stack : Stack) (e : Expr) :
    ((e.evaluate stack).result ≠ .error .tooDeep →
      (e.erase.evaluate stack).result = (e.evaluate stack).result) ∧
    (∀ f : String → String, ((e.rename f).evaluate stack).result = (e.evaluate stack).result) ∧
    ∀ other : Expr, other.rename (fun _ => "") = e.rename (fun _ => "") →
      (other.evaluate stack).result = (e.evaluate stack).result := by
  refine ⟨result_erase (Nat.le_refl _), fun f => result_rename f e _, ?_⟩
  intro other same
  calc
    (other.evaluate stack).result = ((other.rename fun _ => "").evaluate stack).result :=
      (result_rename _ other _).symm
    _ = ((e.rename fun _ => "").evaluate stack).result := by rw [same]
    _ = (e.evaluate stack).result := result_rename _ e _

/-- In `(x <- 2) + x` the second cell keeps its own value. -/
theorem evaluate_erase_sum :
    ((binary .add (binary .assign (var "x" (.number (.int 0))) (literal (.number (.int 2))))
      (var "x" (.number (.int 5)))).evaluate .empty).result = .ok (.number (.int 7)) ∧
    ((binary .add (literal (.number (.int 2))) (literal (.number (.int 5)))).evaluate .empty).result =
      .ok (.number (.int 7)) := by
  have value : ((binary .add (binary .assign (var "x" (.number (.int 0)))
      (literal (.number (.int 2)))) (var "x" (.number (.int 5)))).evaluate .empty).result =
      .ok (.number (.int 7)) := by rfl
  refine ⟨value, ?_⟩
  rw [← value]
  exact (evaluate_erase .empty _).1 (by rw [value]; simp)

end Expr

end LineCalc
