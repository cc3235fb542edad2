import LineCalc.Number.Text

namespace LineCalc

/-- Two doubles are the same if their bits are: a NaN is itself, and zero has two forms. -/
instance floatDecidableEq : DecidableEq Float := fun ⟨x⟩ ⟨y⟩ =>
  if h : x = y then isTrue (by rw [h]) else isFalse (by simpa using h)

inductive Number
  | int (n : Int)
  | float (x : Float)
  deriving DecidableEq

inductive Value
  | bool (b : Bool)
  | number (n : Number)
  deriving DecidableEq

namespace Number

def exact : Number → Binary64
  | int n => .ofInt n
  | float x => .ofFloat x

def toFloat? : Number → Option Float
  | int n =>
    let x := Binary64.toFloat (n < 0) n.natAbs 0
    if x.isInf then none else some x
  | float x => some x

def compare? (a b : Number) : Option Ordering := a.exact.compare? b.exact

def text : Number → Except Fault String
  | int n => integerText n
  | float x => .ok (Binary64.ofFloat x).text

end Number

namespace Value

def blank : Value := number (.int 0)

def equals : Value → Value → Bool
  | bool a, bool b => a = b
  | number a, number b => a.compare? b = some .eq
  | _, _ => false

def text : Value → Except Fault String
  | bool true => .ok "true"
  | bool false => .ok "false"
  | number n => n.text

end Value

end LineCalc
