import LineCalc.Expr.Dump
import LineCalc.Token

namespace LineCalc

structure Report where
  line : String
  success : Bool
  value : Option Value
  error : Option Failure
  tokens : List Token
  tree : Option Expr
  deriving DecidableEq

def Token.toJson (t : Token) : Json :=
  .object [("text", .string t.text), ("kind", .string t.kind.name),
    ("priority", .ofInt t.priority), ("position", .ofInt t.position)]

def Failure.toJson (f : Failure) : Json :=
  .object <| [("kind", .string f.kind.name), ("message", .string f.message)]
    ++ (f.position.map fun position => ("position", Json.ofInt position)).toList
    ++ (f.snippet.map fun snippet => ("snippet", Json.string snippet)).toList

namespace Report

def missingText : String := "None"

def display (r : Report) : Except Fault String :=
  match r.value with
  | some value => value.text
  | none => .ok missingText

def render (lead : String) (r : Report) : Except Fault String :=
  if r.success then r.display.map (lead ++ ·)
  else .ok ((r.error.map Failure.text).getD missingText)

def toJson (stack : Stack) (r : Report) : Except Fault Json := do
  let result ←
    if r.success then do
      let display ← r.display
      pure [("value", (r.value.map Json.ofValue).getD .null), ("display", .string display)]
    else pure []
  let error := (r.error.map fun e => ("error", e.toJson)).toList
  let tokens :=
    if r.tokens.isEmpty then [] else [("tokens", Json.array (r.tokens.map Token.toJson))]
  let tree ← match r.tree with
    | some tree => do pure [("tree", ← tree.toJson stack.inner)]
    | none => pure []
  return .object <|
    [("line", .string r.line), ("success", .bool r.success)] ++ result ++ error ++ tokens ++ tree

def defaultIndent : Json.Indent := some 2

def jsonText (stack : Stack) (indent : Json.Indent) (r : Report) : Except Fault String := do
  (← r.toJson stack.inner).render stack.inner.writerRoom indent

def describe (stack : Stack) (showTokens showTree : Bool) (r : Report) : Except Fault String := do
  let tokens := if showTokens && !r.tokens.isEmpty then [Token.table r.tokens] else []
  let tree ← match showTree, r.tree with
    | true, some tree => do pure [← tree.dump stack.inner 0]
    | _, _ => pure []
  return "\n".intercalate (tokens ++ tree)

end Report

end LineCalc
