import LineCalc.Value
import LineCalc.Operator

/-! What the operators compute.

Integers stay exact where the operation allows it: `/` and `%` go to the floor, and `^` takes
exponents that are not negative. Any other pair of numbers is brought to doubles, which fails if
an integer is too large for one. Division of doubles follows IEEE 754. -/

namespace LineCalc

namespace Number

def nanFloat : Float := Float.ofBits 0x7FF8000000000000

def infinityFloat : Float := Float.ofBits 0x7FF0000000000000

/-- The power of two integers. Powers of zero, one and minus one need no multiplication, so that an
exponent may be as large as it likes. -/
def intPow (a : Int) (n : Nat) : Int :=
  if a = 0 then if n = 0 then 1 else 0
  else if a = 1 then 1
  else if a = -1 then if n % 2 = 0 then 1 else -1
  else Int.pow a n

theorem neg_one_pow (n : Nat) : Int.pow (-1) n = if n % 2 = 0 then 1 else -1 := by
  induction n with
  | zero => rfl
  | succ n ih =>
    have step : Int.pow (-1) (n + 1) = Int.pow (-1) n * -1 := Int.pow_succ (-1) n
    rw [step, ih]
    split <;> split <;> omega

theorem intPow_eq (a : Int) (n : Nat) : intPow a n = Int.pow a n := by
  unfold intPow
  split
  · next h =>
    subst h
    split
    · next h =>
      subst h
      exact (Int.pow_zero 0).symm
    · next h => exact (Int.zero_pow h).symm
  · split
    · next h =>
      subst h
      exact Int.one_pow.symm
    · split
      · next h => rw [h, neg_one_pow]
      · rfl

/-- The remainder of a division to the floor, so of the sign of the divisor, as a zero is too. -/
def floatMod (x y : Float) : Float :=
  match Binary64.ofFloat x, Binary64.ofFloat y with
  | .finite s m e, .finite t n f =>
    let unit := min e f
    let remainder := m * Nat.pow 2 (e - unit).toNat % (n * Nat.pow 2 (f - unit).toNat)
    if n = 0 then nanFloat
    else if remainder = 0 then Binary64.toFloat t 0 0
    else if s = t then Binary64.toFloat s remainder unit
    else Binary64.toFloat s remainder unit + y
  | .finite s m _, .infinite t =>
    if m = 0 then Binary64.toFloat t 0 0 else if s = t then x else y
  | _, _ => nanFloat

/-- The power of two doubles. Zero has infinite negative powers, and a fractional power of a
negative number is a NaN unless it is too large for a double. -/
def floatPow (x y : Float) : Float :=
  let base := Binary64.ofFloat x
  let exponent := Binary64.ofFloat y
  if x == 0 && y < 0 then infinityFloat
  else if x < 0 && base.isFinite && exponent.isFinite && !exponent.isWhole then
    if (Float.pow x.abs y).isInf then infinityFloat else nanFloat
  else Float.pow x y

def onFloats (op : Operator) (compute : Float → Float → Float) (a b : Number) :
    Except EvalError Number :=
  match a.toFloat?, b.toFloat? with
  | some x, some y => .ok (.float (compute x y))
  | _, _ => .error (.overflow op.symbol)

def add : Number → Number → Except EvalError Number
  | .int a, .int b => .ok (.int (a + b))
  | a, b => onFloats .add (· + ·) a b

def sub : Number → Number → Except EvalError Number
  | .int a, .int b => .ok (.int (a - b))
  | a, b => onFloats .sub (· - ·) a b

def mul : Number → Number → Except EvalError Number
  | .int a, .int b => .ok (.int (a * b))
  | a, b => onFloats .mul (· * ·) a b

def div : Number → Number → Except EvalError Number
  | .int a, .int b => if b = 0 then .error .dividedByZero else .ok (.int (a.fdiv b))
  | a, b => onFloats .div (· / ·) a b

def mod : Number → Number → Except EvalError Number
  | .int a, .int b => if b = 0 then .error .dividedByZero else .ok (.int (a.fmod b))
  | a, b => onFloats .mod floatMod a b

def pow : Number → Number → Except EvalError Number
  | .int a, .int (.ofNat n) => .ok (.int (intPow a n))
  | a, b => onFloats .pow floatPow a b

def ordered (accepts : Ordering → Bool) (a b : Number) : Value :=
  .bool ((a.compare? b).any accepts)

end Number

def Operator.apply (op : Operator) (left right : Value) : Except EvalError Value :=
  match op, left, right with
  | eq, _, _ => .ok (.bool (left.equals right))
  | ne, _, _ => .ok (.bool !(left.equals right))
  | lt, .number a, .number b => .ok (Number.ordered Ordering.isLT a b)
  | le, .number a, .number b => .ok (Number.ordered Ordering.isLE a b)
  | gt, .number a, .number b => .ok (Number.ordered Ordering.isGT a b)
  | ge, .number a, .number b => .ok (Number.ordered Ordering.isGE a b)
  | add, .number a, .number b => (a.add b).map .number
  | sub, .number a, .number b => (a.sub b).map .number
  | mul, .number a, .number b => (a.mul b).map .number
  | div, .number a, .number b => (a.div b).map .number
  | mod, .number a, .number b => (a.mod b).map .number
  | pow, .number a, .number b => (a.pow b).map .number
  | assign, .number _, .number _ => .error (.unknownOperator op.symbol)
  | _, _, _ => .error (.notNumeric op.symbol)

end LineCalc
