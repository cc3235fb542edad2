import LineCalc.Expr
import LineCalc.Json
import LineCalc.Stack

namespace LineCalc.Expr

def padding (indent : Int) : String :=
  String.ofList (List.replicate (2 * indent.toNat) ' ')

def dumpLines : (levels : Nat) → (indent : Int) → Expr → Except Fault (List String)
  | 0, _, _ => .error .tooDeep
  | _ + 1, indent, literal value => do
    let text ← value.text
    return [padding indent ++ s!"Literal({text})"]
  | _ + 1, indent, var name value => do
    let text ← value.text
    return [padding indent ++ s!"Variable({name} = {text})"]
  | levels + 1, indent, binary op left right => do
    let first ← dumpLines levels (indent + 1) left
    let second ← dumpLines levels (indent + 1) right
    return (padding indent ++ s!"BinaryOp({op.symbol})") :: first ++ second
  | _ + 1, _, foreign kind => .error (.unknownNode kind)

def dump (stack : Stack) (indent : Int) (e : Expr) : Except Fault String :=
  (e.dumpLines stack.leafRoom indent).map ("\n".intercalate ·)

def toJsonWithin : (levels : Nat) → Expr → Except Fault Json
  | 0, _ => .error .tooDeep
  | _ + 1, literal value => .ok (.object [("literal", .ofValue value)])
  | _ + 1, var name value => .ok (.object [("var", .string name), ("value", .ofValue value)])
  | levels + 1, binary op left right => do
    let first ← toJsonWithin levels left
    let second ← toJsonWithin levels right
    return .object [(op.symbol, .array [first, second])]
  | _ + 1, foreign kind => .error (.unknownNode kind)

def toJson (stack : Stack) (e : Expr) : Except Fault Json := e.toJsonWithin stack.leafRoom

end LineCalc.Expr
