import LineCalc.Number.Binary64
import LineCalc.Number.Shortest
import LineCalc.Error

namespace LineCalc

structure FloatLayout where
  /-- With more zeros than this between point and digits, the number gets an exponent. -/
  leastPoint : Int
  /-- With more digits than this before the point, the number gets an exponent. -/
  greatestPoint : Int
  /-- An exponent has at least so many digits. -/
  exponentWidth : Nat

/-- Positional from `0.0001` up to sixteen digits before the point, and two exponent digits. -/
def FloatLayout.standard : FloatLayout := ⟨-3, 16, 2⟩

namespace FloatLayout

def positional (digits : List Char) (point : Int) : List Char :=
  if point ≤ 0 then
    '0' :: '.' :: List.replicate (-point).toNat '0' ++ digits
  else if digits.length ≤ point.toNat then
    digits ++ List.replicate (point.toNat - digits.length) '0' ++ ['.', '0']
  else
    digits.take point.toNat ++ '.' :: digits.drop point.toNat

def exponentMark (layout : FloatLayout) (exponent : Int) : List Char :=
  let digits := Nat.toDigits 10 exponent.natAbs
  let padding := List.replicate (layout.exponentWidth - digits.length) '0'
  'e' :: (if exponent < 0 then '-' else '+') :: padding ++ digits

def scientific (layout : FloatLayout) (digits : List Char) (point : Int) : List Char :=
  let mantissa := match digits with
    | first :: second :: rest => first :: '.' :: second :: rest
    | _ => digits
  mantissa ++ layout.exponentMark (point - 1)

def digits (layout : FloatLayout) (mantissa : Nat) (exponent : Int) : List Char :=
  let (digits, point) := Decimal.shortest mantissa exponent
  if layout.leastPoint ≤ point ∧ point ≤ layout.greatestPoint then
    positional digits point
  else
    layout.scientific digits point

end FloatLayout

def Binary64.text : Binary64 → String
  | nan => "nan"
  | infinite negative => if negative then "-inf" else "inf"
  | finite negative mantissa exponent =>
    let size :=
      if mantissa = 0 then ['0', '.', '0'] else FloatLayout.standard.digits mantissa exponent
    String.ofList (if negative then '-' :: size else size)

def integerText (n : Int) : Except Fault String :=
  if Nat.pow 10 digitLimit ≤ n.natAbs then .error .integerTooLong else .ok (toString n)

end LineCalc
