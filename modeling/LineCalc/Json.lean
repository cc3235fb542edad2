import LineCalc.Value
import LineCalc.Text.Quoted

namespace LineCalc

inductive Json
  | null
  | bool (b : Bool)
  | number (n : Number)
  | string (s : String)
  | array (items : List Json)
  | object (members : List (String × Json))

namespace Json

def ofInt (n : Int) : Json := number (.int n)

/-- A value as JSON. JSON has no infinities and no NaN: these become their names. -/
def ofValue : Value → Json
  | .bool b => bool b
  | .number (.int n) => ofInt n
  | .number (.float x) =>
    match Binary64.ofFloat x with
    | .finite .. => number (.float x)
    | reading => string reading.text

def unitEscape (unit : Nat) : List Char := '\\' :: 'u' :: Text.hex 4 unit

/-- A character between the quotes of a string: printable ASCII as it is, quotes, backslashes and
control characters escaped, and any other character by its units of UTF-16. -/
def escapedChar (c : Char) : List Char :=
  if c = '"' then ['\\', '"']
  else if c = '\\' then ['\\', '\\']
  else if c = '\n' then ['\\', 'n']
  else if c = '\r' then ['\\', 'r']
  else if c = '\t' then ['\\', 't']
  else if c.toNat = 0x0C then ['\\', 'f']
  else if c.toNat = 0x08 then ['\\', 'b']
  else if 0x20 ≤ c.toNat ∧ c.toNat < 0x7F then [c]
  else if c.toNat < 0x10000 then unitEscape c.toNat
  else
    let offset := c.toNat - 0x10000
    unitEscape (0xD800 + offset / 0x400) ++ unitEscape (0xDC00 + offset % 0x400)

def stringText (s : String) : String :=
  String.ofList ('"' :: s.toList.flatMap escapedChar ++ ['"'])

abbrev Indent := Option Int

namespace Indent

def newline (indent : Indent) (level : Nat) : String :=
  match indent with
  | none => ""
  | some width => "\n" ++ String.ofList (List.replicate (width.toNat * level) ' ')

def separator (indent : Indent) (level : Nat) : String :=
  match indent with
  | none => ", "
  | some _ => "," ++ indent.newline level

end Indent

def enclose (indent : Indent) (level : Nat) (opening closing : String) (items : List String) :
    String :=
  if items.isEmpty then opening ++ closing
  else
    opening ++ Indent.newline indent (level + 1)
      ++ (Indent.separator indent (level + 1)).intercalate items
      ++ Indent.newline indent level ++ closing

mutual

/-- The text of a document that stands at a level. An array or an object takes a call, of which there is room
for so many at once. -/
def renderAt (room : Nat) (indent : Indent) (level : Nat) : Json → Except Fault String
  | null => .ok "null"
  | bool b => .ok (if b then "true" else "false")
  | number n => n.text
  | string s => .ok (stringText s)
  | array items =>
    if level < room then do
      let items ← renderItems room indent (level + 1) items
      return enclose indent level "[" "]" items
    else .error .tooDeep
  | object members =>
    if level < room then do
      let members ← renderMembers room indent (level + 1) members
      return enclose indent level "\x7b" "\x7d" members
    else .error .tooDeep

def renderItems (room : Nat) (indent : Indent) (level : Nat) :
    List Json → Except Fault (List String)
  | [] => .ok []
  | item :: rest => do
    let text ← renderAt room indent level item
    let texts ← renderItems room indent level rest
    return text :: texts

def renderMembers (room : Nat) (indent : Indent) (level : Nat) :
    List (String × Json) → Except Fault (List String)
  | [] => .ok []
  | (key, item) :: rest => do
    let text ← renderAt room indent level item
    let texts ← renderMembers room indent level rest
    return (stringText key ++ ": " ++ text) :: texts

end

def render (room : Nat) (indent : Indent) (document : Json) : Except Fault String :=
  document.renderAt room indent 0

end Json

end LineCalc
