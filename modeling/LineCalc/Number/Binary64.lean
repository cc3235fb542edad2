namespace LineCalc

inductive Binary64
  | nan
  | infinite (negative : Bool)
  | finite (negative : Bool) (mantissa : Nat) (exponent : Int)
  deriving DecidableEq, Repr

namespace Binary64

def minExponent : Int := -1074

/-- Bit 63 is the sign, the next eleven bits are the exponent's field, and the last 52 bits are
the fraction, to which a field other than zero adds a leading one. -/
def ofBits (bits : Nat) : Binary64 :=
  let negative := decide (Nat.pow 2 63 ≤ bits)
  let field : Nat := bits / Nat.pow 2 52 % Nat.pow 2 11
  let fraction : Nat := bits % Nat.pow 2 52
  if field = 2047 then
    if fraction = 0 then infinite negative else nan
  else if field = 0 then
    finite negative fraction minExponent
  else
    finite negative (fraction + Nat.pow 2 52) (minExponent + (field - 1))

def ofFloat (x : Float) : Binary64 := ofBits x.toBits.toNat

def ofInt (n : Int) : Binary64 := finite (n < 0) n.natAbs 0

def toFloat (negative : Bool) (mantissa : Nat) (exponent : Int) : Float :=
  let places := (-exponent).toNat
  let scaled := mantissa * Nat.pow 2 exponent.toNat * Nat.pow 5 places
  let size := Float.ofScientific scaled true places
  if negative then -size else size

def signed (negative : Bool) (mantissa : Nat) : Int :=
  if negative then -mantissa else mantissa

def compareScaled (a : Int) (e : Int) (b : Int) (f : Int) : Ordering :=
  compare (a * Int.pow 2 (e - f).toNat) (b * Int.pow 2 (f - e).toNat)

def compare? : Binary64 → Binary64 → Option Ordering
  | nan, _ => none
  | _, nan => none
  | infinite s, infinite t => some (compare t s)
  | infinite s, finite .. => some (if s then .lt else .gt)
  | finite .., infinite t => some (if t then .gt else .lt)
  | finite s m e, finite t n f => some (compareScaled (signed s m) e (signed t n) f)

def isWhole : Binary64 → Bool
  | finite _ m e => m % Nat.pow 2 (-e).toNat = 0
  | _ => false

def isFinite : Binary64 → Bool
  | finite .. => true
  | _ => false

end Binary64

end LineCalc
