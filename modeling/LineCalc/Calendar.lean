namespace LineCalc.Calendar

def padded (width n : Nat) : String :=
  let digits := Nat.toDigits 10 n
  String.ofList (List.replicate (width - digits.length) '0' ++ digits)

structure Date where
  year : Nat
  month : Nat
  day : Nat
  deriving DecidableEq, Repr

/-- The date so many days after the first of January 1970. Days are counted from a first of March
at which 400 years begin, so that a leap day ends its year. -/
def Date.ofDays (days : Nat) : Date :=
  let days := days + 719468
  let era := days / 146097
  let dayOfEra := days % 146097
  let yearOfEra := (dayOfEra - dayOfEra / 1460 + dayOfEra / 36524 - dayOfEra / 146096) / 365
  let dayOfYear := dayOfEra - (365 * yearOfEra + yearOfEra / 4 - yearOfEra / 100)
  let monthFromMarch := (5 * dayOfYear + 2) / 153
  let month := if monthFromMarch < 10 then monthFromMarch + 3 else monthFromMarch - 9
  let year := yearOfEra + 400 * era + (if month ≤ 2 then 1 else 0)
  ⟨year, month, dayOfYear - (153 * monthFromMarch + 2) / 5 + 1⟩

def stamp (milliseconds : Nat) : String :=
  let seconds := milliseconds / 1000
  let date := Date.ofDays (seconds / 86400)
  let day := s!"{padded 4 date.year}-{padded 2 date.month}-{padded 2 date.day}"
  let minute := s!"{padded 2 (seconds / 3600 % 24)}:{padded 2 (seconds / 60 % 60)}"
  s!"{day} {minute}:{padded 2 (seconds % 60)},{padded 3 (milliseconds % 1000)}"

def isLeap (year : Nat) : Bool := year % 4 = 0 && (year % 100 ≠ 0 || year % 400 = 0)

def daysIn (year month : Nat) : Nat :=
  if month = 2 then (if isLeap year then 29 else 28)
  else if [4, 6, 9, 11].contains month then 30
  else 31

end LineCalc.Calendar
