import LineCalc.Text.Digit
import LineCalc.Value

namespace LineCalc

def Number.ofDecimal (cs : List Char) : Number :=
  let whole := cs.takeWhile Text.isDigit
  let places := (cs.dropWhile Text.isDigit).drop 1
  .float (Float.ofScientific (Text.numberOfDigits (whole ++ places)) true places.length)

def Number.ofInteger (cs : List Char) : Except Fault Number :=
  if digitLimit < cs.length then .error (.literalTooLong cs.length)
  else .ok (.int (Text.numberOfDigits cs))

end LineCalc
