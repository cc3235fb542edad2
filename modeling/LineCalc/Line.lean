import LineCalc.Event
import LineCalc.Report

namespace LineCalc

inductive LineError
  | lex (error : LexError)
  | parse (error : ParseError)
  | eval (error : EvalError)
  | fault (fault : Fault)
  deriving DecidableEq, Repr

namespace LineError

def ofBuildError : BuildError → LineError
  | .parse e => parse e
  | .fault f => fault f

def failure : LineError → Except Fault Failure
  | lex e => .ok e.failure
  | parse e => .ok e.failure
  | eval e => .ok e.failure
  | fault f => .error f

end LineError

structure Run where
  events : List Event
  outcome : Except Fault Report

namespace Line

def evaluate (stack : Stack) (line : String) : Except LineError Value :=
  match Token.scan line with
  | .error e => .error (.lex e)
  | .ok tokens =>
    match (Expr.ofTokens stack.inner tokens).result with
    | .error e => .error (.ofBuildError e)
    | .ok tree => (tree.evaluate stack.inner).result.mapError .eval

def failedRun (line : String) (tokens : List Token) (tree : Option Expr) (events : List Event)
    (error : LineError) : Run :=
  match error.failure with
  | .ok failure =>
    ⟨events ++ [.failed line failure], .ok ⟨line, false, none, some failure, tokens, tree⟩⟩
  | .error fault => ⟨events, .error fault⟩

def run (stack : Stack) (line : String) : Run :=
  match Token.scan line with
  | .error e => failedRun line [] none [] (.lex e)
  | .ok tokens =>
    let building := Expr.ofTokens stack.inner tokens
    let events := .scanned tokens.length line :: building.splits.map .split
    match building.result with
    | .error e => failedRun line tokens none events (.ofBuildError e)
    | .ok tree =>
      let evaluation := tree.evaluate stack.inner
      let events := events ++ evaluation.writes.map .assigned
      match evaluation.result with
      | .error e => failedRun line tokens (some evaluation.tree) events (.eval e)
      | .ok value => ⟨events, .ok ⟨line, true, some value, none, tokens, some evaluation.tree⟩⟩

end Line

end LineCalc
