import LineCalc.Expr
import LineCalc.Expr.Span
import LineCalc.Stack
import LineCalc.Text.Quoted
import LineCalc.Token.Scan
import LineCalc.Value.Literal

namespace LineCalc

inductive BuildError
  | parse (error : ParseError)
  | fault (fault : Fault)
  deriving DecidableEq, Repr

structure Split where
  start : Nat
  stop : Nat
  root : Nat
  symbol : String
  deriving DecidableEq, Repr

structure Building where
  splits : List Split
  result : Except BuildError Expr

namespace Expr

/-- The expression of a single token, whose text has to match its kind as a whole. -/
def ofToken (t : Token) : Except BuildError Expr :=
  let cs := t.text.toList
  let refusal := BuildError.parse ⟨.invalidToken t.text, some t.position⟩
  match t.kind with
  | .literal =>
    if Text.decimal? cs = some cs then .ok (.literal (.number (.ofDecimal cs)))
    else if Text.run? Text.isDigit cs = some cs then
      match Number.ofInteger cs with
      | .ok n => .ok (.literal (.number n))
      | .error fault => .error (.fault fault)
    else .error refusal
  | .identifier =>
    if Text.identifier? cs = some cs then .ok (.var t.text .blank) else .error refusal
  | _ => .error refusal

def join (symbol : String) (left right : Expr) : Except BuildError Expr :=
  match Operator.ofSymbol? symbol with
  | some op => .ok (.binary op left right)
  | none => .error (.fault (.notAnOperator (Text.quoted symbol)))

/-- Builds a span with a call for each level, of which there is room for so many; what needs more is refused
at `first`. -/
def build (first : Option Int) : (levels start : Nat) → List Token → Building
  | 0, _, _ => ⟨[], .error (.parse ⟨.tooDeep, first⟩)⟩
  | levels + 1, start, tokens =>
    match Span.strip start tokens with
    | .error e => ⟨[], .error (.parse e)⟩
    | .ok ⟨_, []⟩ => ⟨[], .error (.parse ⟨.missingOperand, none⟩)⟩
    | .ok ⟨_, [t]⟩ => ⟨[], ofToken t⟩
    | .ok ⟨start, tokens⟩ =>
      match Span.operatorRoot tokens with
      | .error e => ⟨[], .error (.parse e)⟩
      | .ok c =>
        let split : Split := ⟨start, start + tokens.length, start + c.index, c.token.text⟩
        let left := build first levels start (tokens.take c.index)
        match left.result with
        | .error e => ⟨split :: left.splits, .error e⟩
        | .ok a =>
          let right := build first levels (start + c.index + 1) (tokens.drop (c.index + 1))
          ⟨split :: left.splits ++ right.splits, right.result.bind (join c.token.text a)⟩

def ofTokens (stack : Stack) (tokens : List Token) : Building :=
  build (tokens.head?.map Token.position) stack.spanRoom 0 tokens

end Expr

end LineCalc
