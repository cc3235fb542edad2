/-! The shortest decimal that reads back as a double.

A double `m · 2 ^ q` is read back from every decimal between the midpoints to its two neighbours,
the midpoints included if `m` is even. For one digit, two digits and so on up to seventeen, the
two decimals of that many digits that enclose the number are tried. The first of them that lies
between the midpoints is the answer; of two, the nearer one, and the even one if both are
equally near. -/

namespace LineCalc.Decimal

/-- Seventeen digits tell any two doubles apart. -/
def maxDigits : Nat := 17

/-- More places than the least positive double has zeros after its point. -/
def leadingPlaces : Nat := 400

/-- Where the point stands in `m · 2 ^ q`: the number of digits before it, or, negated, the
number of zeros after it. -/
def point (m : Nat) (q : Int) : Int :=
  let scaled := m * Nat.pow 2 q.toNat * Nat.pow 10 leadingPlaces / Nat.pow 2 (-q).toNat
  (Nat.toDigits 10 scaled).length - leadingPlaces

/-- How far below a double its midpoint lies, in quarters of the last bit: half a bit, or a quarter
below a power of two, where doubles stand twice as dense. -/
def gapBelow (m : Nat) (q : Int) : Nat :=
  if m = Nat.pow 2 52 ∧ -1074 < q then 1 else 2

/-- The whole number `d` for which `d · 10 ^ e` is the decimal to write for `m · 2 ^ q`, if one on
that grid reads back. Quarters of the last bit and steps of the grid are compared after both are
brought to whole numbers. -/
def onGrid? (m : Nat) (q e : Int) : Option Nat :=
  let quarter := Nat.pow 2 (q - 2).toNat * Nat.pow 10 (-e).toNat
  let step := Nat.pow 10 e.toNat * Nat.pow 2 (2 - q).toNat
  let number := 4 * m * quarter
  let low := (4 * m - gapBelow m q) * quarter
  let high := (4 * m + 2) * quarter
  let below := number / step
  let reads (d : Nat) : Bool :=
    if m % 2 = 0 then low ≤ d * step && d * step ≤ high else low < d * step && d * step < high
  match reads below, reads (below + 1) with
  | false, false => none
  | true, false => some below
  | false, true => some (below + 1)
  | true, true =>
    match compare (number - below * step) ((below + 1) * step - number) with
    | .lt => some below
    | .gt => some (below + 1)
    | .eq => some (if below % 2 = 0 then below else below + 1)

def trimZeros (digits : List Char) : List Char :=
  (digits.reverse.dropWhile (· = '0')).reverse

def shortest (m : Nat) (q : Int) : List Char × Int :=
  let p := point m q
  let found := (List.range maxDigits).findSome? fun (n : Nat) =>
    let e := p - (n + 1 : Nat)
    (onGrid? m q e).map fun d => (d, e)
  match found with
  | some (d, e) =>
    let digits := Nat.toDigits 10 d
    (trimZeros digits, digits.length + e)
  | none => ([], p)

end LineCalc.Decimal
