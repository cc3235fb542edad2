import LineCalc.Token

/-! Where a row of tokens is split.

Parentheses around all of a row are stripped. Of the tokens that are left, the root is the one of
least weight, and the rightmost of those. The weight of a token is its priority, and more than any
priority is added to it between parentheses, so that a group is not split while anything stands
outside it. -/

namespace LineCalc

structure Span where
  start : Nat
  tokens : List Token
  deriving DecidableEq, Repr

namespace Span

/-- Whether a group whose tokens are read from within closes with the last token and not before;
`depth` groups are open inside it. -/
def closesLast (depth : Nat) : List Token → Bool
  | [] => false
  | t :: rest =>
    if t.isOpen then closesLast (depth + 1) rest
    else if t.isClose then
      match depth with
      | 0 => rest.isEmpty
      | depth + 1 => closesLast depth rest
    else closesLast depth rest

def isWrapped : List Token → Bool
  | [] => false
  | t :: rest => t.isOpen && closesLast 0 rest

def interior (tokens : List Token) : List Token := tokens.tail.dropLast

theorem length_interior_lt {tokens : List Token} (h : isWrapped tokens = true) :
    (interior tokens).length < tokens.length := by
  cases tokens with
  | nil => simp [isWrapped] at h
  | cons t rest =>
    simp only [interior, List.tail_cons, List.length_dropLast, List.length_cons]
    omega

/-- The span within all outer parentheses. Parentheses that enclose nothing are refused, at the
closing one. -/
def strip (start : Nat) (tokens : List Token) : Except ParseError Span :=
  if h : isWrapped tokens then
    if (interior tokens).isEmpty then
      .error ⟨.missingOperand, tokens.getLast?.map Token.position⟩
    else
      strip (start + 1) (interior tokens)
  else
    .ok ⟨start, tokens⟩
termination_by tokens.length
decreasing_by exact length_interior_lt h

inductive Balance
  | balanced
  /-- A closing parenthesis with no partner. -/
  | stray (closer : Token)
  | unclosed
  deriving DecidableEq, Repr

/-- Pairs parentheses, `depth` of which are already open. -/
def balance (depth : Nat) : List Token → Balance
  | [] => if depth = 0 then .balanced else .unclosed
  | t :: rest =>
    if t.isOpen then balance (depth + 1) rest
    else if t.isClose then
      match depth with
      | 0 => .stray t
      | depth + 1 => balance depth rest
    else balance depth rest

/-- The parenthesis to blame if they do not pair: the first closing one that has no partner, or
else the first opening one. -/
def unpaired? (tokens : List Token) : Option Token :=
  match balance 0 tokens with
  | .balanced => none
  | .stray closer => some closer
  | .unclosed => tokens.find? Token.isOpen

/-- Added to the priority of a token between parentheses. -/
def enclosedWeight : Int := 10000

structure Candidate where
  index : Nat
  token : Token
  weight : Int
  deriving DecidableEq, Repr

def candidates (depth index : Nat) : List Token → List Candidate
  | [] => []
  | t :: rest =>
    if t.isOpen then candidates (depth + 1) (index + 1) rest
    else if t.isClose then candidates (depth - 1) (index + 1) rest
    else if t.isDelimiter then candidates depth (index + 1) rest
    else
      ⟨index, t, if depth = 0 then t.priority else t.priority + enclosedWeight⟩
        :: candidates depth (index + 1) rest

/-- The last of the candidates of least weight. -/
def lightest? : List Candidate → Option Candidate
  | [] => none
  | c :: rest =>
    match lightest? rest with
    | some best => if c.weight < best.weight then some c else some best
    | none => some c

def root (tokens : List Token) : Except ParseError Candidate :=
  match unpaired? tokens with
  | some parenthesis => .error ⟨.invalidParenthesis, some parenthesis.position⟩
  | none =>
    match lightest? (candidates 0 0 tokens) with
    | some c => .ok c
    | none => .error ⟨.invalidSyntax, tokens.head?.map Token.position⟩

def operatorRoot (tokens : List Token) : Except ParseError Candidate :=
  match root tokens with
  | .error e => .error e
  | .ok c =>
    if c.token.kind ≠ .operator then
      .error ⟨.invalidToken c.token.text, some c.token.position⟩
    else if c.index = 0 ∨ c.index + 1 = tokens.length then
      .error ⟨.missingOperandFor c.token.text, some c.token.position⟩
    else
      .ok c

end Span

end LineCalc
