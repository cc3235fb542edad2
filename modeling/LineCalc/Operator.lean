namespace LineCalc

inductive Operator
  | assign | le | ge | ne | eq | lt | gt | add | sub | mul | div | mod | pow
  deriving DecidableEq, Repr

namespace Operator

/-- Every operator, in the order in which a text is matched against their symbols: a symbol
of two characters comes before the one-character symbol that it starts with. -/
def all : List Operator :=
  [assign, le, ge, ne, eq, lt, gt, add, sub, mul, div, mod, pow]

def symbol : Operator → String
  | assign => "<-"
  | le => "<="
  | ge => ">="
  | ne => "!="
  | eq => "="
  | lt => "<"
  | gt => ">"
  | add => "+"
  | sub => "-"
  | mul => "*"
  | div => "/"
  | mod => "%"
  | pow => "^"

def priority : Operator → Int
  | assign | le | ge | ne | eq | lt | gt => 0
  | add | sub => 1
  | mul | div | mod => 2
  | pow => 3

def ofSymbol? (symbol : String) : Option Operator :=
  all.find? fun op => op.symbol = symbol

theorem mem_all (op : Operator) : op ∈ all := by
  cases op <;> decide

theorem symbol_of_ofSymbol? {symbol : String} {op : Operator} (h : ofSymbol? symbol = some op) :
    op.symbol = symbol := by
  simpa using List.find?_some h

@[simp] theorem ofSymbol?_symbol (op : Operator) : ofSymbol? op.symbol = some op := by
  cases op <;> decide

end Operator

end LineCalc
