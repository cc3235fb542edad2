import LineCalc.Expr.Build
import LineCalc.Expr.Evaluate

namespace LineCalc

inductive LogLevel
  | critical | error | warning | info | debug
  deriving DecidableEq, Repr

namespace LogLevel

def all : List LogLevel := [critical, error, warning, info, debug]

def name : LogLevel → String
  | critical => "CRITICAL"
  | error => "ERROR"
  | warning => "WARNING"
  | info => "INFO"
  | debug => "DEBUG"

def severity : LogLevel → Nat
  | critical => 50
  | error => 40
  | warning => 30
  | info => 20
  | debug => 10

def ofName? (name : String) : Option LogLevel :=
  all.find? fun level => level.name = name

@[simp] theorem ofName?_name (level : LogLevel) : ofName? level.name = some level := by
  cases level <;> decide

end LogLevel

inductive Event
  | scanned (count : Nat) (line : String)
  | split (split : Split)
  | assigned (write : Write)
  | failed (line : String) (failure : Failure)
  deriving DecidableEq

def Value.logText : Value → Except Fault String
  | .bool true => .ok "True"
  | .bool false => .ok "False"
  | .number n => n.text

namespace Event

def source : Event → String
  | scanned .. => "logic.lexer"
  | split _ => "logic.parser"
  | assigned _ => "logic.evaluator"
  | failed .. => "repl"

def level : Event → LogLevel
  | failed .. => .info
  | _ => .debug

/-- The wording of an event, which there is none of for a write of too long an integer. -/
def message : Event → Except Fault String
  | scanned count line => .ok s!"lexed {count} tokens from {Text.quoted line}"
  | split s => .ok s!"split [{s.start}, {s.stop}) at {s.root} ({s.symbol})"
  | assigned w => w.value.logText.map fun value => s!"assign {w.name} <- {value}"
  | failed line failure => .ok s!"failed to evaluate {Text.quoted line}: {failure.text}"

def isShownAt (threshold : LogLevel) (e : Event) : Bool :=
  threshold.severity ≤ e.level.severity

def logLine (time : String) (e : Event) : Except Fault String :=
  e.message.map fun message =>
    s!"{time} - backend.splitcalc.{e.source} - {e.level.name} - {message}"

end Event

end LineCalc
