import LineCalc.Proofs.Expr.Cells

/-! Kinds: which expressions have a value is told without evaluating them.

The kind of an expression follows from the values that stand in it and from its operators. An
expression is well-kinded if each of its operators is given what it takes. Evaluating a well-kinded
expression gives a value of its kind, or fails because of the numbers that it met, and evaluating
any other fails. -/

namespace LineCalc

inductive Kind
  | boolean | numeric
  deriving DecidableEq, Repr

def Value.kind : Value → Kind
  | bool _ => .boolean
  | number _ => .numeric

namespace Operator

def kind? : Operator → Option Kind
  | assign => none
  | le | ge | ne | eq | lt | gt => some .boolean
  | add | sub | mul | div | mod | pow => some .numeric

def takesAny : Operator → Bool
  | eq | ne => true
  | _ => false

inductive FailsBy (op : Operator) : EvalError → Prop
  | dividedByZero (arithmetic : op.kind? = some .numeric) : FailsBy op .dividedByZero
  | overflow (arithmetic : op.kind? = some .numeric) : FailsBy op (.overflow op.symbol)

end Operator

namespace Expr

def kind? : Expr → Option Kind
  | literal value => some value.kind
  | var _ value => some value.kind
  | binary .assign (var _ _) right => right.kind?
  | binary op _ _ => op.kind?
  | foreign _ => none

/-- Whether an operator takes what stands on its sides: an assignment takes a variable on its left,
comparisons for equality take anything, and the others take numbers. -/
def fits (op : Operator) (left right : Expr) : Bool :=
  if op = .assign then left.isVariable
  else op.takesAny || (left.kind? = some .numeric && right.kind? = some .numeric)

def wellKinded : Expr → Bool
  | literal _ => true
  | var _ _ => true
  | binary op left right => fits op left right && left.wellKinded && right.wellKinded
  | foreign _ => false

end Expr

namespace Operator

variable {op : Operator}

def Gives (op : Operator) (result : Except EvalError Value) : Prop :=
  (∃ value, result = .ok value ∧ op.kind? = some value.kind) ∨ ∃ e, result = .error e ∧ op.FailsBy e

theorem gives_number (arithmetic : op.kind? = some .numeric) (n : Number) :
    op.Gives (.ok (.number n)) :=
  .inl ⟨.number n, rfl, arithmetic⟩

theorem gives_onFloats (arithmetic : op.kind? = some .numeric) (compute : Float → Float → Float)
    (a b : Number) : op.Gives ((Number.onFloats op compute a b).map .number) := by
  unfold Number.onFloats
  split
  · exact gives_number arithmetic _
  · exact .inr ⟨_, rfl, .overflow arithmetic⟩

theorem gives_ite {zero : Prop} [Decidable zero] (arithmetic : op.kind? = some .numeric)
    (n : Number) :
    op.Gives
      ((if zero then .error .dividedByZero else .ok n : Except EvalError Number).map .number) := by
  split
  · exact .inr ⟨_, rfl, .dividedByZero arithmetic⟩
  · exact gives_number arithmetic n

theorem apply_numbers (compute : op ≠ .assign) (a b : Number) :
    op.Gives (op.apply (.number a) (.number b)) := by
  cases op with
  | assign => contradiction
  | le | ge | ne | eq | lt | gt => exact .inl ⟨_, rfl, rfl⟩
  | add | sub | mul =>
      cases a <;> cases b
      case int.int | float.float => exact gives_number rfl _
      all_goals exact gives_onFloats rfl _ _ _
  | div | mod =>
      cases a <;> cases b
      case int.int => exact gives_ite rfl _
      case float.float => exact gives_number rfl _
      all_goals exact gives_onFloats rfl _ _ _
  | pow =>
      cases a <;> cases b
      case int.int m n =>
        cases n with
        | ofNat n => exact gives_number rfl _
        | negSucc n => exact gives_onFloats rfl _ _ _
      case float.float => exact gives_number rfl _
      all_goals exact gives_onFloats rfl _ _ _

theorem apply_gives (compute : op ≠ .assign) {a b : Value}
    (takes : op.takesAny = false → a.kind = .numeric ∧ b.kind = .numeric) :
    op.Gives (op.apply a b) := by
  cases any : op.takesAny with
  | true =>
      cases op with
      | eq | ne => exact .inl ⟨_, rfl, rfl⟩
      | _ => simp [takesAny] at any
  | false =>
      rcases takes any with ⟨left, right⟩
      cases a with
      | bool => contradiction
      | number a =>
          cases b with
          | bool => contradiction
          | number b => exact apply_numbers compute a b

theorem apply_notNumeric (number : op.takesAny = false) {a b : Value}
    (other : ¬ (a.kind = .numeric ∧ b.kind = .numeric)) :
    op.apply a b = .error (.notNumeric op.symbol) := by
  cases a with
  | bool =>
      cases op with
      | eq | ne => simp [takesAny] at number
      | _ => rfl
  | number =>
      cases b with
      | number => exact absurd ⟨rfl, rfl⟩ other
      | bool =>
          cases op with
          | eq | ne => simp [takesAny] at number
          | _ => rfl

theorem apply_ne_tooDeep (compute : op ≠ .assign) (a b : Value) : op.apply a b ≠ .error .tooDeep := by
  intro deep
  by_cases takes : op.takesAny = false → a.kind = .numeric ∧ b.kind = .numeric
  · rcases apply_gives compute takes with ⟨value, came, _⟩ | ⟨error, failed, numbers⟩
    · rw [deep] at came
      contradiction
    · rw [deep] at failed
      cases failed
      cases numbers
  · obtain ⟨number, other⟩ := Classical.not_imp.mp takes
    rw [apply_notNumeric number other] at deep
    cases deep

end Operator

namespace Expr

theorem kind?_binary {op : Operator} (compute : op ≠ .assign) (left right : Expr) :
    (binary op left right).kind? = op.kind? := by
  cases op with
  | assign => contradiction
  | _ => rfl

theorem fits_binary {op : Operator} (compute : op ≠ .assign) {left right : Expr} :
    fits op left right = true ↔
      (op.takesAny = false → left.kind? = some .numeric ∧ right.kind? = some .numeric) := by
  cases any : op.takesAny <;> simp [fits, compute, any]

theorem lt_frames_of_tooDeep {e : Expr} {room : Nat}
    (deep : (e.evaluateWithin room).result = .error .tooDeep) : room < e.frames := by
  induction e generalizing room with
  | binary op left right ihLeft ihRight =>
      cases operation op left with
      | assign name old =>
          rw [result_assign] at deep
          have source := ihRight deep
          rw [frames]
          omega
      | refuse target =>
          rw [evaluateWithin_assign_other _ _ _ target] at deep
          rw [frames_assign_other left right target]
          exact lt_of_grant deep (by simp)
      | compute compute =>
          rw [result_binary _ _ _ compute] at deep
          rw [frames_binary left right compute]
          cases valueLeft : (left.evaluateWithin (room - 1)).result with
          | error error =>
              rw [valueLeft] at deep
              cases deep
              have first := ihLeft valueLeft
              omega
          | ok a =>
              cases valueRight : (right.evaluateWithin (room - 1)).result with
              | error error =>
                  rw [valueLeft, valueRight] at deep
                  cases deep
                  have second := ihRight valueRight
                  omega
              | ok b =>
                  rw [valueLeft, valueRight] at deep
                  exact absurd deep (Operator.apply_ne_tooDeep compute a b)
  | literal value | var name value | foreign kind => exact lt_of_grant deep (by simp)

section Whole

variable (left right : Expr) (room : Nat)

/-- Sides that are evaluated in the room of the whole come to the same, unless the whole is refused for
want of the room that it takes from them. -/
theorem result_binary_or_tooDeep {op : Operator} (compute : op ≠ .assign) :
    ((binary op left right).evaluateWithin room).result =
      ((left.evaluateWithin room).result.bind fun a =>
        (right.evaluateWithin room).result.bind (op.apply a)) ∨
    ((binary op left right).evaluateWithin room).result = .error .tooDeep ∧
      room < max left.frames right.frames + 1 := by
  by_cases deep : ((binary op left right).evaluateWithin room).result = .error .tooDeep
  · have high := lt_frames_of_tooDeep deep
    rw [frames_binary left right compute] at high
    exact .inr ⟨deep, high⟩
  · left
    rw [result_binary room left right compute] at deep ⊢
    have first : left.evaluateWithin room = left.evaluateWithin (room - 1) := by
      refine evaluateWithin_of_shallow (Nat.sub_le _ _) fun refused => deep ?_
      rw [refused]
      rfl
    rw [first]
    cases came : (left.evaluateWithin (room - 1)).result with
    | error error => rfl
    | ok a =>
        have second : right.evaluateWithin room = right.evaluateWithin (room - 1) := by
          refine evaluateWithin_of_shallow (Nat.sub_le _ _) fun refused => deep ?_
          rw [came, refused]
          rfl
        rw [second]

theorem result_assign_or_tooDeep (name : String) (old : Value) :
    ((binary .assign (var name old) right).evaluateWithin room).result =
      (right.evaluateWithin room).result ∨
    ((binary .assign (var name old) right).evaluateWithin room).result = .error .tooDeep ∧
      room < right.frames + 2 := by
  by_cases deep : ((binary .assign (var name old) right).evaluateWithin room).result = .error .tooDeep
  · exact .inr ⟨deep, lt_frames_of_tooDeep deep⟩
  · left
    rw [result_assign] at deep ⊢
    rw [evaluateWithin_of_shallow (Nat.sub_le room 2) deep]

end Whole

/-- What the evaluation of a well-kinded expression comes to in so much room: a value of its kind, a failure
that the numbers are to blame for, or a refusal for want of the room that it needs. -/
inductive Outcome (e : Expr) (room : Nat) : Except EvalError Value → Prop
  | value {value : Value} (kind : e.kind? = some value.kind) : Outcome e room (.ok value)
  | failure {op : Operator} {error : EvalError} (numbers : op.FailsBy error) :
      Outcome e room (.error error)
  | tooDeep (high : room < e.frames) : Outcome e room (.error .tooDeep)

theorem Outcome.of_side {e side : Expr} {room less : Nat} {error : EvalError}
    (outcome : side.Outcome less (.error error)) (lower : less < side.frames → room < e.frames) :
    e.Outcome room (.error error) := by
  cases outcome with
  | failure numbers => exact .failure numbers
  | tooDeep high => exact .tooDeep (lower high)

theorem Outcome.kind?_eq {e : Expr} {room : Nat} {value : Value}
    (outcome : e.Outcome room (.ok value)) : e.kind? = some value.kind := by
  cases outcome with
  | value kind => exact kind

theorem Outcome.of_gives {op : Operator} {left right : Expr} {room : Nat}
    {result : Except EvalError Value} (compute : op ≠ .assign) (gives : op.Gives result) :
    (binary op left right).Outcome room result := by
  rcases gives with ⟨value, rfl, kind⟩ | ⟨error, rfl, numbers⟩
  · exact .value ((kind?_binary compute left right).trans kind)
  · exact .failure numbers

theorem Outcome.of_leaf {e : Expr} {value : Value} (kind : e.kind? = some value.kind)
    (single : e.frames = 1) (room : Nat) : e.Outcome room (grant room 1 (.ok value)) := by
  by_cases enough : 1 ≤ room
  · rw [grant_of_le enough]
    exact .value kind
  · rw [grant_of_lt (by omega)]
    exact .tooDeep (by omega)

theorem outcome_of_wellKinded {e : Expr} (kinds : e.wellKinded = true) (room : Nat) :
    e.Outcome room (e.evaluateWithin room).result := by
  induction e generalizing room with
  | literal value => exact .of_leaf rfl rfl room
  | var name value => exact .of_leaf rfl rfl room
  | foreign kind => simp [wellKinded] at kinds
  | binary op left right ihLeft ihRight =>
      simp only [wellKinded, Bool.and_eq_true] at kinds
      rcases kinds with ⟨⟨fit, kindsLeft⟩, kindsRight⟩
      cases operation op left with
      | assign name old =>
          rw [result_assign]
          have second := ihRight kindsRight (room - 2)
          generalize (right.evaluateWithin (room - 2)).result = result at second
          cases result with
          | error error =>
              refine second.of_side fun high => ?_
              rw [frames]
              omega
          | ok value => exact .value second.kind?_eq
      | refuse target =>
          rw [fits, if_pos rfl, target] at fit
          contradiction
      | compute compute =>
          have first := ihLeft kindsLeft (room - 1)
          have second := ihRight kindsRight (room - 1)
          have whole := frames_binary left right compute
          rw [result_binary _ _ _ compute]
          generalize (left.evaluateWithin (room - 1)).result = resultLeft at first
          generalize (right.evaluateWithin (room - 1)).result = resultRight at second
          cases resultLeft with
          | error error => exact first.of_side fun high => by omega
          | ok a =>
              cases resultRight with
              | error error => exact second.of_side fun high => by omega
              | ok b =>
                  refine .of_gives compute (Operator.apply_gives compute ?_)
                  intro numbers
                  have needed := (fits_binary compute).mp fit numbers
                  rw [first.kind?_eq, second.kind?_eq] at needed
                  simpa using needed

theorem exists_error_grant (room calls : Nat) (error : EvalError) :
    ∃ other, grant room calls (.error error) = .error other := by
  by_cases enough : calls ≤ room
  · exact ⟨error, grant_of_le enough _⟩
  · exact ⟨.tooDeep, grant_of_lt (by omega) _⟩

/-- Both sides of an operator are evaluated unless one fails, so whatever makes an expression
ill-kinded is met. -/
theorem error_of_not_wellKinded {e : Expr} (illKinded : e.wellKinded = false) (room : Nat) :
    ∃ error, (e.evaluateWithin room).result = .error error := by
  induction e generalizing room with
  | literal value => simp [wellKinded] at illKinded
  | var name value => simp [wellKinded] at illKinded
  | foreign kind => exact exists_error_grant room 1 _
  | binary op left right ihLeft ihRight =>
      cases operation op left with
      | assign name old =>
          rw [result_assign]
          apply ihRight
          simpa [wellKinded, fits, isVariable] using illKinded
      | refuse target =>
          rw [evaluateWithin_assign_other _ _ _ target]
          exact exists_error_grant room 2 _
      | compute compute =>
          rw [result_binary _ _ _ compute]
          cases valueLeft : (left.evaluateWithin (room - 1)).result with
          | error error => exact ⟨error, rfl⟩
          | ok a =>
              cases valueRight : (right.evaluateWithin (room - 1)).result with
              | error error => exact ⟨error, rfl⟩
              | ok b =>
                  -- Both sides have values, so they are well-kinded and the operator is at fault.
                  have kindsLeft : left.wellKinded = true := by
                    apply Bool.of_not_eq_false
                    intro illKinded
                    rcases ihLeft illKinded (room - 1) with ⟨error, failed⟩
                    simp [valueLeft] at failed
                  have kindsRight : right.wellKinded = true := by
                    apply Bool.of_not_eq_false
                    intro illKinded
                    rcases ihRight illKinded (room - 1) with ⟨error, failed⟩
                    simp [valueRight] at failed
                  have first := outcome_of_wellKinded kindsLeft (room - 1)
                  have second := outcome_of_wellKinded kindsRight (room - 1)
                  rw [valueLeft] at first
                  rw [valueRight] at second
                  have misfit : ¬ fits op left right = true := by
                    simpa [wellKinded, kindsLeft, kindsRight] using illKinded
                  rw [fits_binary compute, first.kind?_eq, second.kind?_eq] at misfit
                  obtain ⟨numbers, other⟩ := Classical.not_imp.mp misfit
                  refine ⟨_, Operator.apply_notNumeric numbers ?_⟩
                  simpa using other

/-- Kinds decide which expressions can have a value: a well-kinded expression that there is room for
comes to a value of its kind or fails by division by zero or overflow, and any other expression
fails. -/
theorem evaluate_wellKinded (stack : Stack) (e : Expr) :
    (e.wellKinded = true → e.Outcome stack.nodeRoom (e.evaluate stack).result) ∧
    (e.wellKinded = false → ∃ error, (e.evaluate stack).result = .error error) :=
  ⟨fun kinds => outcome_of_wellKinded kinds _, fun illKinded => error_of_not_wellKinded illKinded _⟩

/-- In `(x <- 7) % (2 - 2)` every operator takes what it is given and the division fails. In
`(1 < 2) < 3` the outer comparison is given a truth value. -/
theorem evaluate_wellKinded_remainder :
    (binary .mod (binary .assign (var "x" .blank) (literal (.number (.int 7))))
      (binary .sub (literal (.number (.int 2))) (literal (.number (.int 2))))).Outcome
        Stack.empty.nodeRoom (.error .dividedByZero) ∧
    ∃ error, ((binary .lt (binary .lt (literal (.number (.int 1))) (literal (.number (.int 2))))
      (literal (.number (.int 3)))).evaluate .empty).result = .error error :=
  ⟨(evaluate_wellKinded .empty _).1 rfl, (evaluate_wellKinded .empty _).2 rfl⟩

end Expr

end LineCalc
