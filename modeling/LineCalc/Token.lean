import LineCalc.Operator
import LineCalc.Error

namespace LineCalc

inductive TokenKind
  | literal | identifier | operator | delimiter
  deriving DecidableEq, Repr

def TokenKind.name : TokenKind → String
  | literal => "literal"
  | identifier => "identifier"
  | operator => "operator"
  | delimiter => "delimiter"

/-- A piece of a line. `position` counts the characters before it, and an expression is split at
its token of least `priority`. -/
structure Token where
  text : String
  kind : TokenKind
  priority : Int
  position : Int
  deriving DecidableEq, Repr

namespace Token

def literalPriority : Int := 1000

def identifierPriority : Int := 999

def delimiterPriority : Int := -1

def priority? (kind : TokenKind) (text : String) : Option Int :=
  match kind with
  | .literal => some literalPriority
  | .identifier => some identifierPriority
  | .operator => (Operator.ofSymbol? text).map Operator.priority
  | .delimiter => some delimiterPriority

def create (text : String) (kind : TokenKind) (position : Int) : Except Fault Token :=
  match priority? kind text with
  | some priority => .ok ⟨text, kind, priority, position⟩
  | none => .error (.unknownSymbol text)

def isDelimiter (t : Token) : Bool := t.kind = .delimiter

def isOpen (t : Token) : Bool := t.isDelimiter && t.text = "("

def isClose (t : Token) : Bool := t.isDelimiter && t.text = ")"

def row (t : Token) : String :=
  s!"\"{t.text}\"\t=> {t.kind.name}\t(priority: {t.priority})"

def table (tokens : List Token) : String :=
  "\n".intercalate (tokens.map row)

theorem isClose_of_isOpen {t : Token} (h : t.isOpen = true) : t.isClose = false := by
  simp_all [isOpen, isClose]

end Token

end LineCalc
