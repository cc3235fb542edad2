/-! The stack of calls.

Whoever goes down an expression, a row of tokens or a document opens a call for each part, and at most
`Stack.limit` calls are open at once. The calls for the work on one part are over before the next part is
gone down to, so they are not counted one by one: as many as they take at once are set aside. -/

namespace LineCalc

/-- What a caller finds on the stack: the calls that are open, its own among them, and how many more are set
aside for the work on a span, on a node and on a leaf, and for the writer of documents. -/
structure Stack where
  depth : Nat
  span : Nat
  node : Nat
  leaf : Nat
  writer : Nat
  leaf_le_span : leaf ≤ span

namespace Stack

def limit : Nat := 1000

def empty : Stack := ⟨0, 0, 0, 0, 0, Nat.le_refl 0⟩

def inner (s : Stack) : Stack := { s with depth := s.depth + 1 }

-- Building and evaluation are entered by a call of their own, ahead of the first part.

def spanRoom (s : Stack) : Nat := limit - (s.depth + 1 + s.span)

def nodeRoom (s : Stack) : Nat := limit - (s.depth + 1 + s.node)

def leafRoom (s : Stack) : Nat := limit - (s.depth + s.leaf)

def writerRoom (s : Stack) : Nat := limit - (s.depth + s.writer)

end Stack

end LineCalc
