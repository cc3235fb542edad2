import LineCalc.Calendar
import LineCalc.Document

/-! Scalars of YAML: plain, or between quotes.

A plain scalar resolves by YAML 1.1: to null, a truth value, a number, a day, or else text. Times of day are
left out and read as text. A scalar that resolves to a number or a day that there is none of does not make the
text malformed, so it is kept with its error until the whole text is read. Functions that read give `none` for
a text that is malformed. -/

namespace LineCalc.Yaml

abbrev Entry := Except ReadError Scalar

def skipSpaces (cs : List Char) : List Char := cs.dropWhile (· = ' ')

def trimSpaces (cs : List Char) : List Char := (cs.reverse.dropWhile (· = ' ')).reverse

def endsHere (cs : List Char) : Bool :=
  match skipSpaces cs with
  | [] => true
  | '#' :: _ => true
  | _ => false

def digitsOf? (base : Nat) (digit? : Char → Option Nat) (cs : List Char) : Option Nat :=
  let digits := cs.filter (· ≠ '_')
  if digits.isEmpty then none
  else digits.foldlM (fun n c => do
    let d ← digit? c
    if d < base then some (base * n + d) else none) 0

def asciiDigit? (c : Char) : Option Nat :=
  if c.isDigit then some (c.toNat - 48)
  else if 'a' ≤ c ∧ c ≤ 'f' then some (c.toNat - 87)
  else if 'A' ≤ c ∧ c ≤ 'F' then some (c.toNat - 55)
  else none

def signed (cs : List Char) : Bool × List Char :=
  match cs with
  | '-' :: rest => (true, rest)
  | '+' :: rest => (false, rest)
  | _ => (false, cs)

def addSixtieth? (n : Nat) (cs : List Char) : Option Nat := do
  let place ← digitsOf? 10 asciiDigit? cs
  if cs.all Char.isDigit ∧ cs.length ≤ 2 ∧ place < 60 then some (60 * n + place) else none

def baseSixty? (cs : List Char) : Option Nat :=
  match ((String.ofList cs).splitOn ":").map String.toList with
  | first :: second :: places =>
    if first.head?.any Char.isDigit then do
      let n ← digitsOf? 10 asciiDigit? first
      (second :: places).foldlM addSixtieth? n
    else none
  | _ => none

def ofDecimalDigits (cs : List Char) (n : Nat) : Except Fault Nat :=
  let digits := ((cs.takeWhile (· ≠ ':')).filter (· ≠ '_')).length
  if digitLimit < digits then .error (.literalTooLong digits) else .ok n

/-- Whole numbers: decimal, or octal behind `0`, hexadecimal behind `0x`, binary behind `0b`, or of
base sixty. Only decimal digits are limited in number. -/
def integer? (cs : List Char) : Option (Except Fault Int) :=
  let (negative, size) := signed cs
  let size? : Option (Except Fault Nat) := match size with
    | ['0'] => some (.ok 0)
    | '0' :: 'b' :: rest => (digitsOf? 2 asciiDigit? rest).map .ok
    | '0' :: 'x' :: rest => (digitsOf? 16 asciiDigit? rest).map .ok
    | '0' :: rest => (digitsOf? 8 asciiDigit? rest).map .ok
    | first :: _ =>
      if first.isDigit then
        ((digitsOf? 10 asciiDigit? size).or (baseSixty? size)).map (ofDecimalDigits size)
      else none
    | [] => none
  size?.map fun size => size.map fun n => if negative then -n else n

def exponent? : List Char → Option Int
  | [] => some 0
  | mark :: sign :: digits =>
    if (mark = 'e' ∨ mark = 'E') ∧ (sign = '+' ∨ sign = '-') ∧ digits.all Char.isDigit then do
      let n ← digitsOf? 10 asciiDigit? digits
      some (if sign = '-' then -n else n)
    else none
  | _ => none

/-- The whole part of a decimal and whether it is of base sixty. Without one, the point has to be at
the front, with a digit behind it. -/
def wholePart? (cs whole rest : List Char) : Option (Nat × Bool) :=
  if whole.isEmpty then
    if cs.head? = some '.' ∧ rest.head?.any Char.isDigit then some (0, false) else none
  else if whole.contains ':' then (baseSixty? whole).map (·, true)
  else if whole.head?.any Char.isDigit then (digitsOf? 10 asciiDigit? whole).map (·, false)
  else none

/-- Decimals: digits with a point among them, or behind or before them, and a power of ten. The
digits before the point may be of base sixty, and then there is no power. -/
def decimal? (cs : List Char) : Option Float :=
  let (negative, size) := signed cs
  let isDigit (c : Char) : Bool := c.isDigit || c = '_'
  let whole := size.takeWhile fun c => isDigit c || c = ':'
  match size.drop whole.length with
  | '.' :: rest => do
    let (n, inSixties) ← wholePart? cs whole rest
    let places := (rest.takeWhile isDigit).filter (· ≠ '_')
    let behind := rest.dropWhile isDigit
    let power ← exponent? behind
    if inSixties && !behind.isEmpty then none
    let n := places.foldl (fun n c => 10 * n + (c.toNat - 48)) n
    let power := power - places.length
    let x := if power < 0 then Float.ofScientific n true (-power).toNat
      else Float.ofScientific n false power.toNat
    some (if negative then -x else x)
  | _ => none

def ofDate (word : String) (year month day : Nat) : Except Fault Scalar :=
  if year = 0 then .error (.noSuchDay "year 0 is out of range")
  else if month = 0 ∨ 12 < month then .error (.noSuchDay "month must be in 1..12")
  else if day = 0 ∨ Calendar.daysIn year month < day then
    .error (.noSuchDay "day is out of range for month")
  else .ok (.date word)

def date? (cs : List Char) : Option (Except Fault Scalar) :=
  let word := String.ofList cs
  match (word.splitOn "-").map String.toList with
  | [year, month, day] =>
    if [year, month, day].map List.length = [4, 2, 2] then do
      some (ofDate word (← digitsOf? 10 asciiDigit? year) (← digitsOf? 10 asciiDigit? month)
        (← digitsOf? 10 asciiDigit? day))
    else none
  | _ => none

def truthWords : List (String × Bool) :=
  [("yes", true), ("Yes", true), ("YES", true), ("no", false), ("No", false), ("NO", false),
   ("true", true), ("True", true), ("TRUE", true), ("false", false), ("False", false),
   ("FALSE", false), ("on", true), ("On", true), ("ON", true), ("off", false), ("Off", false),
   ("OFF", false)]

def floatWords : List (String × Float) :=
  let infinity := Float.ofBits 0x7FF0000000000000
  let nan := Float.ofBits 0x7FF8000000000000
  [(".inf", infinity), (".Inf", infinity), (".INF", infinity), ("+.inf", infinity),
   ("+.Inf", infinity), ("+.INF", infinity), ("-.inf", -infinity), ("-.Inf", -infinity),
   ("-.INF", -infinity), (".nan", nan), (".NaN", nan), (".NAN", nan)]

def nullWords : List String := ["", "~", "null", "Null", "NULL"]

/-- What a plain scalar stands for. The words for a default value and for a merge stand for
nothing here. -/
def resolve (cs : List Char) : Entry :=
  let word := String.ofList cs
  if nullWords.contains word then .ok .null
  else if word = "=" ∨ word = "<<" then .error .malformed
  else
    match truthWords.lookup word, integer? cs, (floatWords.lookup word).or (decimal? cs), date? cs with
    | some b, _, _, _ => .ok (.bool b)
    | _, some n, _, _ => (n.map fun n => .number (.int n)).mapError .fault
    | _, _, some x, _ => .ok (.number (.float x))
    | _, _, _, some day => day.mapError .fault
    | _, _, _, none => .ok (.text word)

def singleQuoted? : List Char → Option (List Char × List Char)
  | [] => none
  | '\'' :: '\'' :: rest => (singleQuoted? rest).map fun (text, rest) => ('\'' :: text, rest)
  | '\'' :: rest => some ([], rest)
  | c :: rest => (singleQuoted? rest).map fun (text, rest) => (c :: text, rest)

def escapes : List (Char × Nat) :=
  [('0', 0), ('a', 7), ('b', 8), ('t', 9), ('n', 10), ('v', 11), ('f', 12), ('r', 13), ('e', 27),
   (' ', 32), ('"', 34), ('/', 47), ('\\', 92)]

def doubleQuoted? : List Char → Option (List Char × List Char)
  | [] => none
  | '"' :: rest => some ([], rest)
  | '\\' :: c :: rest => do
    let code ← escapes.lookup c
    let (text, rest) ← doubleQuoted? rest
    some (Char.ofNat code :: text, rest)
  | c :: rest => (doubleQuoted? rest).map fun (text, rest) => (c :: text, rest)

def quoted? : List Char → Option (List Char × List Char)
  | '\'' :: rest => singleQuoted? rest
  | '"' :: rest => doubleQuoted? rest
  | _ => none

def isQuote (c : Char) : Bool := c = '\'' || c = '"'

def isFlowMark (c : Char) : Bool := "[]\x7b\x7d,".toList.contains c

def endsKey (inFlow : Bool) : List Char → Bool
  | [] => true
  | c :: _ => c = ' ' || (inFlow && isFlowMark c)

def startsPlain (inFlow : Bool) : List Char → Bool
  | [] => false
  | c :: rest =>
    if c = '-' ∨ (c = '?' ∨ c = ':') ∧ !inFlow then !(endsKey inFlow rest)
    else !(" \t-?:,[]\x7b\x7d#&*!|>'\"%@`".toList.contains c)

/-- A plain scalar and what follows it. It ends before a comment, behind a key, and in a flow
collection also at its marks. -/
def plain (inFlow : Bool) : List Char → List Char × List Char
  | [] => ([], [])
  | c :: rest =>
    if c = ':' && endsKey inFlow rest || inFlow && (isFlowMark c || c = '?')
        || c = ' ' && endsHere (c :: rest) || c = '\t' then
      ([], c :: rest)
    else
      let (text, rest) := plain inFlow rest
      (c :: text, rest)

def plain? (inFlow : Bool) (cs : List Char) : Option (List Char × List Char) :=
  if startsPlain inFlow cs then
    let (text, rest) := plain inFlow cs
    some (trimSpaces text, rest)
  else none

def scalar? (inFlow : Bool) (cs : List Char) : Option (Entry × List Char) :=
  if cs.head?.any isQuote then do
    let (text, rest) ← quoted? cs
    some (.ok (.text (String.ofList text)), rest)
  else do
    let (text, rest) ← plain? inFlow cs
    some (resolve text, rest)

end LineCalc.Yaml
