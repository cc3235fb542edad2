import Mathlib.Algebra.BigOperators.Group.List.Basic
import Mathlib.Algebra.Ring.Int.Defs
import LineCalc.Proofs.Expr.Kinds

/-! Expressions of integers.

What exact arithmetic makes of an expression is said by rules of their own, which take the left side
before the right one and do not tell how a number is computed: a quotient and its remainder are told by
the equation between them, and a power is a product. The rules give one outcome for each expression whose
leaves hold integers, and evaluation comes to the same, unless an exponent is negative. -/

namespace LineCalc

inductive Obstacle
  | zeroDivisor
  | negativeExponent
  deriving DecidableEq, Repr

/-- A quotient with its remainder, which is less than the divisor and has its sign unless it is zero. -/
structure FloorDivision (dividend divisor quotient remainder : Int) : Prop where
  whole : dividend = divisor * quotient + remainder
  small : remainder.natAbs < divisor.natAbs
  sign : remainder = 0 ∨ remainder.sign = divisor.sign

theorem floorDivision_iff {a b q r : Int} :
    FloorDivision a b q r ↔ b ≠ 0 ∧ a.fdiv b = q ∧ a.fmod b = r := by
  have fields : FloorDivision a b q r ↔
      a = b * q + r ∧ r.natAbs < b.natAbs ∧ (r = 0 ∨ r.sign = b.sign) :=
    ⟨fun h => ⟨h.whole, h.small, h.sign⟩, fun h => ⟨h.1, h.2.1, h.2.2⟩⟩
  rw [fields]
  rcases Int.lt_trichotomy b 0 with negative | rfl | positive
  · rw [Int.fdiv_fmod_unique' negative, Int.sign_eq_neg_one_of_neg negative,
      Int.sign_eq_neg_one_iff_neg]
    omega
  · simp
  · rw [Int.fdiv_fmod_unique positive, Int.sign_eq_one_of_pos positive, Int.sign_eq_one_iff_pos]
    omega

inductive Operator.Exactly : Operator → Int → Int → Except Obstacle Int → Prop
  | add (a b : Int) : Exactly .add a b (.ok (a + b))
  | sub (a b : Int) : Exactly .sub a b (.ok (a - b))
  | mul (a b : Int) : Exactly .mul a b (.ok (a * b))
  | div {a b q r : Int} (division : FloorDivision a b q r) : Exactly .div a b (.ok q)
  | mod {a b q r : Int} (division : FloorDivision a b q r) : Exactly .mod a b (.ok r)
  | pow (a : Int) (n : Nat) : Exactly .pow a n (.ok (List.replicate n a).prod)
  | divZero (a : Int) : Exactly .div a 0 (.error .zeroDivisor)
  | modZero (a : Int) : Exactly .mod a 0 (.error .zeroDivisor)
  | powNegative (a : Int) {b : Int} (negative : b < 0) :
      Exactly .pow a b (.error .negativeExponent)

namespace Expr

inductive Exactly : Expr → Except Obstacle Int → Prop
  | literal (n : Int) : Exactly (literal (.number (.int n))) (.ok n)
  | var (name : String) (n : Int) : Exactly (var name (.number (.int n))) (.ok n)
  | assign {right : Expr} {outcome : Except Obstacle Int} (name : String) (old : Value)
      (source : Exactly right outcome) : Exactly (binary .assign (var name old) right) outcome
  | left {op : Operator} {left right : Expr} {obstacle : Obstacle} (compute : op ≠ .assign)
      (first : Exactly left (.error obstacle)) : Exactly (binary op left right) (.error obstacle)
  | right {op : Operator} {left right : Expr} {a : Int} {obstacle : Obstacle}
      (compute : op ≠ .assign) (first : Exactly left (.ok a))
      (second : Exactly right (.error obstacle)) : Exactly (binary op left right) (.error obstacle)
  | apply {op : Operator} {left right : Expr} {a b : Int} {outcome : Except Obstacle Int}
      (compute : op ≠ .assign) (first : Exactly left (.ok a)) (second : Exactly right (.ok b))
      (applied : op.Exactly a b outcome) : Exactly (binary op left right) outcome

end Expr

theorem Operator.Exactly.unique {op : Operator} {a b : Int} {outcome other : Except Obstacle Int}
    (exact : op.Exactly a b outcome) (again : op.Exactly a b other) : outcome = other := by
  cases exact with
  | add | sub | mul => cases again; rfl
  | div division =>
      cases again with
      | div division' =>
          obtain ⟨_, quotient, _⟩ := floorDivision_iff.mp division
          obtain ⟨_, quotient', _⟩ := floorDivision_iff.mp division'
          rw [← quotient, ← quotient']
      | divZero => exact absurd rfl (floorDivision_iff.mp division).1
  | mod division =>
      cases again with
      | mod division' =>
          obtain ⟨_, _, remainder⟩ := floorDivision_iff.mp division
          obtain ⟨_, _, remainder'⟩ := floorDivision_iff.mp division'
          rw [← remainder, ← remainder']
      | modZero => exact absurd rfl (floorDivision_iff.mp division).1
  | pow a n =>
      generalize exponent : (n : Int) = b at again
      cases again with
      | pow _ m => rw [Int.ofNat_inj.mp exponent]
      | powNegative _ negative => omega
  | divZero =>
      cases again with
      | div division => exact absurd rfl (floorDivision_iff.mp division).1
      | divZero => rfl
  | modZero =>
      cases again with
      | mod division => exact absurd rfl (floorDivision_iff.mp division).1
      | modZero => rfl
  | powNegative _ negative =>
      cases again with
      | pow _ n => omega
      | powNegative => rfl

theorem Expr.Exactly.unique {e : Expr} {outcome other : Except Obstacle Int}
    (exact : e.Exactly outcome) (again : e.Exactly other) : outcome = other := by
  induction exact generalizing other with
  | literal | var => cases again; rfl
  | assign name old source ih =>
      cases again with
      | assign _ _ source' => exact ih source'
      | left compute | right compute | apply compute => exact absurd rfl compute
  | left compute first ih =>
      cases again with
      | assign => exact absurd rfl compute
      | left _ first' => exact ih first'
      | right _ first' | apply _ first' => cases ih first'
  | right compute first second ihFirst ihSecond =>
      cases again with
      | assign => exact absurd rfl compute
      | left _ first' => cases ihFirst first'
      | right _ _ second' => exact ihSecond second'
      | apply _ _ second' => cases ihSecond second'
  | apply compute first second applied ihFirst ihSecond =>
      cases again with
      | assign => exact absurd rfl compute
      | left _ first' => cases ihFirst first'
      | right _ _ second' => cases ihSecond second'
      | apply _ first' second' applied' =>
          cases ihFirst first'
          cases ihSecond second'
          exact applied.unique applied'

/-- How a result agrees with exact arithmetic. A negative exponent leads away from the integers, so that
nothing is said of it. -/
inductive Obstacle.Agrees : Except Obstacle Int → Except EvalError Value → Prop
  | value (n : Int) : Agrees (.ok n) (.ok (.number (.int n)))
  | zeroDivisor : Agrees (.error .zeroDivisor) (.error .dividedByZero)
  | negativeExponent (result : Except EvalError Value) : Agrees (.error .negativeExponent) result

open Obstacle (Agrees)

section Agreement

variable {outcome : Except Obstacle Int} {result : Except EvalError Value}

theorem Obstacle.Agrees.ok_iff (agrees : Agrees outcome result)
    (natural : outcome ≠ .error .negativeExponent) {value : Value} :
    result = .ok value ↔ ∃ n, value = .number (.int n) ∧ outcome = .ok n := by
  cases agrees with
  | value n => simp [eq_comm]
  | zeroDivisor => simp
  | negativeExponent => contradiction

theorem Obstacle.Agrees.error_iff (agrees : Agrees outcome result)
    (natural : outcome ≠ .error .negativeExponent) {error : EvalError} :
    result = .error error ↔ error = .dividedByZero ∧ outcome = .error .zeroDivisor := by
  cases agrees with
  | value n => simp
  | zeroDivisor => simp [eq_comm]
  | negativeExponent => contradiction

end Agreement

theorem Operator.exists_exactly_apply {op : Operator} (arithmetic : op.kind? = some .numeric)
    (a b : Int) :
    ∃ outcome, op.Exactly a b outcome ∧
      Agrees outcome (op.apply (.number (.int a)) (.number (.int b))) := by
  have floor (nonzero : b ≠ 0) : FloorDivision a b (a.fdiv b) (a.fmod b) :=
    floorDivision_iff.mpr ⟨nonzero, rfl, rfl⟩
  cases op with
  | assign | le | ge | ne | eq | lt | gt => contradiction
  | add => exact ⟨_, .add a b, .value _⟩
  | sub => exact ⟨_, .sub a b, .value _⟩
  | mul => exact ⟨_, .mul a b, .value _⟩
  | div =>
      by_cases zero : b = 0
      · subst zero
        exact ⟨_, .divZero a, .zeroDivisor⟩
      · refine ⟨_, .div (floor zero), ?_⟩
        simp only [apply, Number.div, if_neg zero, Except.map]
        exact .value _
  | mod =>
      by_cases zero : b = 0
      · subst zero
        exact ⟨_, .modZero a, .zeroDivisor⟩
      · refine ⟨_, .mod (floor zero), ?_⟩
        simp only [apply, Number.mod, if_neg zero, Except.map]
        exact .value _
  | pow =>
      cases b with
      | negSucc n => exact ⟨_, .powNegative a (Int.negSucc_lt_zero n), .negativeExponent _⟩
      | ofNat n =>
          refine ⟨_, .pow a n, ?_⟩
          have product : Number.intPow a n = (List.replicate n a).prod := by
            rw [Number.intPow_eq, List.prod_replicate]
            rfl
          simp only [apply, Number.pow, Except.map, product]
          exact .value _

def Value.isInteger : Value → Bool
  | number (.int _) => true
  | _ => false

namespace Expr

/-- Whether all that is read in an expression are integers, all that is computed is arithmetic, and all
that is assigned to are variables. What a variable holds that is assigned to does not matter. -/
def isIntegral : Expr → Bool
  | literal value => value.isInteger
  | var _ value => value.isInteger
  | binary .assign (var _ _) right => right.isIntegral
  | binary op left right => op.kind? = some .numeric && left.isIntegral && right.isIntegral
  | foreign _ => false

theorem isIntegral_assign_other {left : Expr} (right : Expr) (target : left.isVariable = false) :
    (binary .assign left right).isIntegral = false := by
  cases left with
  | var name value => simp [isVariable] at target
  | _ => rfl

theorem isIntegral_binary {op : Operator} (compute : op ≠ .assign) (left right : Expr) :
    (binary op left right).isIntegral = true ↔
      op.kind? = some .numeric ∧ left.isIntegral = true ∧ right.isIntegral = true := by
  have unfolded : (binary op left right).isIntegral =
      (decide (op.kind? = some .numeric) && left.isIntegral && right.isIntegral) := by
    cases op with
    | assign => contradiction
    | _ => rfl
  rw [unfolded]
  simp only [Bool.and_eq_true, decide_eq_true_eq, and_assoc]

theorem exists_int_of_isInteger {value : Value} (integer : value.isInteger = true) :
    ∃ n, value = .number (.int n) := by
  cases value with
  | bool b => contradiction
  | number number =>
      cases number with
      | int n => exact ⟨n, rfl⟩
      | float x => contradiction

theorem agrees_or_tooDeep {e : Expr} {n : Int} (exact : e.Exactly (.ok n)) (single : e.frames = 1)
    (room : Nat) :
    (∃ outcome, e.Exactly outcome ∧ Agrees outcome (grant room 1 (.ok (.number (.int n))))) ∨
      (grant room 1 (.ok (.number (.int n))) = .error .tooDeep ∧ room < e.frames) := by
  by_cases enough : 1 ≤ room
  · rw [grant_of_le enough]
    exact .inl ⟨_, exact, .value n⟩
  · rw [grant_of_lt (by omega)]
    exact .inr ⟨rfl, by omega⟩

/-- Evaluation in any room agrees with exact arithmetic, or there is less room than the expression
needs. -/
theorem exactly_or_tooDeep {e : Expr} (integral : e.isIntegral = true) (room : Nat) :
    (∃ outcome, e.Exactly outcome ∧ Agrees outcome (e.evaluateWithin room).result) ∨
      ((e.evaluateWithin room).result = .error .tooDeep ∧ room < e.frames) := by
  induction e generalizing room with
  | foreign kind => contradiction
  | literal value =>
      obtain ⟨n, rfl⟩ := exists_int_of_isInteger integral
      exact agrees_or_tooDeep (.literal n) rfl room
  | var name value =>
      obtain ⟨n, rfl⟩ := exists_int_of_isInteger integral
      exact agrees_or_tooDeep (.var name n) rfl room
  | binary op left right ihLeft ihRight =>
      cases operation op left with
      | refuse target =>
          rw [isIntegral_assign_other right target] at integral
          contradiction
      | assign name old =>
          rw [result_assign]
          rcases ihRight integral (room - 2) with ⟨outcome, exact, agrees⟩ | ⟨deep, high⟩
          · exact .inl ⟨outcome, .assign name old exact, agrees⟩
          · refine .inr ⟨deep, ?_⟩
            rw [frames]
            omega
      | compute compute =>
          obtain ⟨arithmetic, integralLeft, integralRight⟩ :=
            (isIntegral_binary compute left right).mp integral
          rw [result_binary _ _ _ compute, frames_binary left right compute]
          rcases ihLeft integralLeft (room - 1) with ⟨outcome, first, agrees⟩ | ⟨deep, high⟩
          · generalize (left.evaluateWithin (room - 1)).result = result at agrees
            cases agrees with
            | zeroDivisor => exact .inl ⟨_, .left compute first, .zeroDivisor⟩
            | negativeExponent => exact .inl ⟨_, .left compute first, .negativeExponent _⟩
            | value a =>
                rcases ihRight integralRight (room - 1) with ⟨outcome, second, agrees⟩ | ⟨deep, high⟩
                · generalize (right.evaluateWithin (room - 1)).result = result at agrees
                  cases agrees with
                  | zeroDivisor => exact .inl ⟨_, .right compute first second, .zeroDivisor⟩
                  | negativeExponent =>
                      exact .inl ⟨_, .right compute first second, .negativeExponent _⟩
                  | value b =>
                      obtain ⟨outcome, applied, agrees⟩ :=
                        Operator.exists_exactly_apply arithmetic a b
                      exact .inl ⟨outcome, .apply compute first second applied, agrees⟩
                · exact .inr ⟨by rw [deep]; rfl, by omega⟩
          · exact .inr ⟨by rw [deep]; rfl, by omega⟩

theorem exists_exactly {e : Expr} (integral : e.isIntegral = true) :
    ∃ outcome, e.Exactly outcome := by
  rcases exactly_or_tooDeep integral e.frames with ⟨outcome, exact, _⟩ | ⟨_, high⟩
  · exact ⟨outcome, exact⟩
  · exact absurd high (Nat.lt_irrefl _)

/-- An expression of integers in which no exponent is negative comes to what exact arithmetic makes of
it, an integer or nothing but a division by zero, unless there is less room than it needs. -/
theorem evaluate_exactly (stack : Stack) (e : Expr) (integral : e.isIntegral = true)
    (natural : ¬ e.Exactly (.error .negativeExponent)) :
    (∃! outcome, e.Exactly outcome) ∧
    ((e.evaluate stack).result = .error .tooDeep → stack.nodeRoom < e.frames) ∧
    ((e.evaluate stack).result ≠ .error .tooDeep →
      (∀ value, (e.evaluate stack).result = .ok value ↔
        ∃ n, value = .number (.int n) ∧ e.Exactly (.ok n)) ∧
      ∀ error, (e.evaluate stack).result = .error error ↔
        error = .dividedByZero ∧ e.Exactly (.error .zeroDivisor)) := by
  obtain ⟨outcome, exact⟩ := exists_exactly integral
  refine ⟨⟨outcome, exact, fun other again => again.unique exact⟩, ?_⟩
  rcases exactly_or_tooDeep integral stack.nodeRoom with ⟨other, again, agrees⟩ | ⟨deep, high⟩
  · cases exact.unique again
    have told (other : Except Obstacle Int) : e.Exactly other ↔ outcome = other :=
      ⟨exact.unique, fun same => same ▸ exact⟩
    rw [told] at natural
    refine ⟨?_, fun _ => ⟨?_, ?_⟩⟩
    · intro deep
      cases ((agrees.error_iff natural).mp deep).1
    · intro value
      simp only [told]
      exact agrees.ok_iff natural
    · intro error
      rw [told]
      exact agrees.error_iff natural
  · exact ⟨fun _ => high, fun shallow => absurd deep shallow⟩

/-- `(x <- -7) / 2 % 3 - 2 ^ 100` goes to the floor twice and further than doubles are exact. In
`1 % (2 - 2) + 2 ^ (0 - 1)` the zero is met before the negative exponent. -/
theorem evaluate_exactly_floor :
    ((binary .sub (binary .mod (binary .div (binary .assign (var "x" .blank)
      (literal (.number (.int (-7))))) (literal (.number (.int 2)))) (literal (.number (.int 3))))
      (binary .pow (literal (.number (.int 2))) (literal (.number (.int 100))))).evaluate .empty).result =
        .ok (.number (.int (2 - 2 ^ 100))) ∧
    ((binary .add (binary .mod (literal (.number (.int 1))) (binary .sub (literal (.number (.int 2)))
      (literal (.number (.int 2))))) (binary .pow (literal (.number (.int 2))) (binary .sub
      (literal (.number (.int 0))) (literal (.number (.int 1)))))).evaluate .empty).result =
        .error .dividedByZero := by
  constructor
  · let e : Expr := binary .sub (binary .mod (binary .div (binary .assign (var "x" .blank)
      (literal (.number (.int (-7))))) (literal (.number (.int 2)))) (literal (.number (.int 3))))
      (binary .pow (literal (.number (.int 2))) (literal (.number (.int 100))))
    have quotient : FloorDivision (-7) 2 (-4) 1 := ⟨by decide, by decide, by decide⟩
    have remainder : FloorDivision (-4) 3 (-2) 2 := ⟨by decide, by decide, by decide⟩
    have power : Operator.Exactly .pow 2 100 (.ok (2 ^ 100)) := by
      rw [← List.prod_replicate]
      exact .pow 2 100
    have exact : e.Exactly (.ok (2 - 2 ^ 100)) :=
      .apply (by decide)
        (.apply (by decide) (.apply (by decide) (.assign "x" .blank (.literal (-7))) (.literal 2)
          (.div quotient)) (.literal 3) (.mod remainder))
        (.apply (by decide) (.literal 2) (.literal 100) power) (.sub 2 (2 ^ 100))
    have natural : ¬ e.Exactly (.error .negativeExponent) := by
      intro negative
      cases exact.unique negative
    obtain ⟨_, high, came⟩ := evaluate_exactly .empty e rfl natural
    have shallow : (e.evaluate .empty).result ≠ .error .tooDeep :=
      fun deep => absurd (high deep) (by decide)
    exact ((came shallow).1 _).mpr ⟨_, rfl, exact⟩
  · let e : Expr := binary .add (binary .mod (literal (.number (.int 1))) (binary .sub
      (literal (.number (.int 2))) (literal (.number (.int 2))))) (binary .pow
      (literal (.number (.int 2))) (binary .sub (literal (.number (.int 0)))
      (literal (.number (.int 1)))))
    have exact : e.Exactly (.error .zeroDivisor) :=
      .left (by decide) (.apply (by decide) (.literal 1)
        (.apply (by decide) (.literal 2) (.literal 2) (.sub 2 2)) (.modZero 1))
    have natural : ¬ e.Exactly (.error .negativeExponent) := by
      intro negative
      cases exact.unique negative
    obtain ⟨_, high, came⟩ := evaluate_exactly .empty e rfl natural
    have shallow : (e.evaluate .empty).result ≠ .error .tooDeep :=
      fun deep => absurd (high deep) (by decide)
    exact ((came shallow).2 _).mpr ⟨rfl, exact⟩

end Expr

end LineCalc
