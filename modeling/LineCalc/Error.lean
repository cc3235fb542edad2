/-! What can go wrong with a line.

A line is refused while it is scanned, while its tokens are split into an expression, or while
the expression is evaluated. Each refusal is a cause; its wording is in one `message` function.
A `Failure` is a refusal as it is shown. A `Fault` is a limit or a broken promise that no
report captures. -/

namespace LineCalc

/-- Nothing that the scanner knows starts at `position`; `snippet` is the text there. -/
structure LexError where
  position : Int
  snippet : String
  deriving DecidableEq, Repr

def LexError.message (e : LexError) : String :=
  s!"invalid token at {e.position}: `{e.snippet}`"

inductive ParseCause
  | missingOperand
  | missingOperandFor (operator : String)
  | invalidSyntax
  | invalidToken (text : String)
  | invalidParenthesis
  | tooDeep
  deriving DecidableEq, Repr

def ParseCause.message : ParseCause → String
  | missingOperand => "missing operand"
  | missingOperandFor operator => s!"missing operand for `{operator}`"
  | invalidSyntax => "invalid syntax"
  | invalidToken text => s!"invalid syntax `{text}`"
  | invalidParenthesis => "invalid parenthesis"
  | tooDeep => "expression too deeply nested"

/-- The tokens form no expression; `position` is that of the token to blame, if there is one. -/
structure ParseError where
  cause : ParseCause
  position : Option Int
  deriving DecidableEq, Repr

inductive EvalError
  | unknownNode (kind : String)
  | unknownOperator (symbol : String)
  | targetNotVariable
  | notNumeric (symbol : String)
  | dividedByZero
  | overflow (symbol : String)
  | tooDeep
  deriving DecidableEq, Repr

def EvalError.message : EvalError → String
  | unknownNode kind => s!"unknown node type: {kind}"
  | unknownOperator symbol => s!"unknown operator: {symbol}"
  | targetNotVariable => "lvalue must be variable"
  | notNumeric symbol => s!"operand must be numeric for `{symbol}`"
  | dividedByZero => "divided by 0"
  | overflow symbol => s!"numeric overflow in `{symbol}`"
  | tooDeep => "expression too deeply nested"

inductive FailureKind
  | general | lex | parse | eval | config
  deriving DecidableEq, Repr

def FailureKind.name : FailureKind → String
  | general => "Error"
  | lex => "LexError"
  | parse => "ParseError"
  | eval => "EvalError"
  | config => "ConfigError"

structure Failure where
  kind : FailureKind
  message : String
  position : Option Int
  snippet : Option String
  deriving DecidableEq, Repr

def Failure.text (f : Failure) : String := s!"{f.kind.name}: {f.message}"

def Failure.ofMessage (kind : FailureKind) (message : String) : Failure :=
  ⟨kind, message, none, none⟩

def LexError.failure (e : LexError) : Failure :=
  ⟨.lex, e.message, some e.position, some e.snippet⟩

def ParseError.failure (e : ParseError) : Failure :=
  ⟨.parse, e.cause.message, e.position, none⟩

def EvalError.failure (e : EvalError) : Failure :=
  .ofMessage .eval e.message

/-- The longest row of decimal digits that is read as an integer, or written for one. -/
def digitLimit : Nat := 4300

/-- A limit of the number format, or an input that no line of text leads to. -/
inductive Fault
  | literalTooLong (digits : Nat)
  | integerTooLong
  | unknownSymbol (text : String)
  | notAnOperator (quoted : String)
  | unknownNode (kind : String)
  | tooDeep
  | keyNotText
  | noSuchDay (reason : String)
  deriving DecidableEq, Repr

def Fault.limitMessage (remark : String) : String :=
  s!"Exceeds the limit ({digitLimit} digits) for integer string conversion{remark}; "
    ++ "use sys.set_int_max_str_digits() to increase the limit"

def Fault.message : Fault → String
  | literalTooLong digits => limitMessage s!": value has {digits} digits"
  | integerTooLong => limitMessage ""
  | unknownSymbol text => s!"Unknown operator: {text}"
  | notAnOperator quoted => s!"{quoted} is not a valid Operator"
  | unknownNode kind => s!"Unknown node type: {kind}"
  | tooDeep => "maximum recursion depth exceeded"
  | keyNotText => "keywords must be strings"
  | noSuchDay reason => reason

end LineCalc
