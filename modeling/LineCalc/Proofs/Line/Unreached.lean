import Mathlib.Logic.Function.Iterate
import LineCalc.Proofs.Expr.InOrder
import LineCalc.Proofs.Expr.Kinds
import LineCalc.Proofs.Token.Layout

/-! What no line leads to.

The scanner finds only what a token can be made of, and what it has found is what building expects:
a literal or an identifier is a leaf, an operator has a symbol that is known, and a position is asked
for only where there is a token. What is built has nothing foreign in it, and no evaluation puts
anything there. So some errors never come up, whatever the line. -/

namespace LineCalc

open LineCalc.Span

def Token.positionAt? (row : List Token) (index : Nat) : Option Int :=
  match row[index]? with
  | some t => some t.position
  | none => row.getLast?.map fun t => t.position + t.text.length

theorem Token.positionAt?_append (front : List Token) (t : Token) (behind : List Token) :
    positionAt? (front ++ t :: behind) front.length = some t.position := by
  simp [positionAt?]

theorem Span.eq_of_operatorRoot_error {span : List Token} {error : ParseError}
    (refused : operatorRoot span = .error error)
    (cause : error.cause ∈ [.missingOperand, .invalidSyntax, .tooDeep]) :
    unpaired? span = none ∧ lightest? (candidates 0 0 span) = none ∧
      error = ⟨.invalidSyntax, span.head?.map Token.position⟩ := by
  unfold operatorRoot root at refused
  cases unpaired : unpaired? span with
  | some parenthesis =>
      simp only [unpaired] at refused
      cases refused
      simp at cause
  | none =>
      cases lightest : lightest? (candidates 0 0 span) with
      | none =>
          simp only [unpaired, lightest] at refused
          cases refused
          exact ⟨rfl, rfl, rfl⟩
      | some c =>
          simp only [unpaired, lightest] at refused
          split at refused
          · cases refused
            simp at cause
          · split at refused
            · cases refused
              simp at cause
            · contradiction

namespace Expr

/-- The errors for which building asks for the position at an index of the row: there are too many
levels, or nothing where a side should be, nothing between parentheses, nothing but parentheses. -/
inductive Asks (row : List Token) : Nat → ParseError → Prop
  | tooDeep : Asks row 0 ⟨.tooDeep, row.head?.map Token.position⟩
  | nothing {span : Span} (reached : Reaches row span) (empty : span.tokens = []) :
      Asks row span.start ⟨.missingOperand, none⟩
  | hollow {span : Span} {pairs : Nat} {opener closer : Token} (reached : Reaches row span)
      (opened : opener.isOpen = true) (closed : closer.isClose = true)
      (encloses : Encloses [opener, closer] pairs span.tokens) :
      Asks row (span.start + pairs + 1) ⟨.missingOperand, some closer.position⟩
  | rootless {span : Span} {pairs : Nat} {inner : List Token} (reached : Reaches row span)
      (encloses : Encloses inner pairs span.tokens) (long : 2 ≤ inner.length)
      (paired : unpaired? inner = none) (rootless : lightest? (candidates 0 0 inner) = none) :
      Asks row (span.start + pairs) ⟨.invalidSyntax, inner.head?.map Token.position⟩

variable {row : List Token} {index : Nat} {error : ParseError}

theorem Asks.position_eq (asked : Asks row index error) :
    error.position = Token.positionAt? row index ∧ (row ≠ [] → index < row.length) := by
  cases asked with
  | tooDeep =>
      cases row with
      | nil => exact ⟨rfl, fun filled => absurd rfl filled⟩
      | cons t rest => exact ⟨rfl, by simp⟩
  | nothing reached empty =>
      -- The sides of a split are not empty, so an empty span is the whole of an empty row.
      have none : row = [] := by
        by_contra filled
        exact reached.partOf.nonempty filled empty
      rw [none]
      exact ⟨rfl, fun filled => absurd rfl filled⟩
  | @hollow span pairs opener closer reached _ _ encloses =>
      rcases reached.partOf.exists_inner encloses with ⟨front, behind, rfl, place⟩
      have found := Token.positionAt?_append (front ++ [opener]) closer behind
      rw [List.length_append, place] at found
      simp only [List.append_assoc, List.cons_append, List.nil_append] at found ⊢
      refine ⟨found.symm, fun _ => ?_⟩
      simp only [List.length_append, List.length_cons, ← place]
      omega
  | @rootless span pairs inner reached encloses long =>
      rcases reached.partOf.exists_inner encloses with ⟨front, behind, rfl, place⟩
      cases inner with
      | nil => simp at long
      | cons t rest =>
          have found := Token.positionAt?_append front t (rest ++ behind)
          rw [place] at found
          simp only [List.append_assoc, List.cons_append] at found ⊢
          refine ⟨found.symm, fun _ => ?_⟩
          simp only [List.length_append, List.length_cons, ← place]
          omega

theorem ofToken_eq_parse_iff {t : Token} :
    ofToken t = .error (.parse error) ↔
      ¬ ((t.kind = .literal ∨ t.kind = .identifier) ∧ t.kind.Spells t.text.toList) ∧
        error = ⟨.invalidToken t.text, some t.position⟩ := by
  by_cases atom : (t.kind = .literal ∨ t.kind = .identifier) ∧ t.kind.Spells t.text.toList
  · by_cases short : t.Short
    · simp [Phrase.ofToken_atom atom.2 short atom.1, atom]
    · simp [Phrase.ofToken_long atom.2 short, atom]
  · have refused : ofToken t = .error (.parse ⟨.invalidToken t.text, some t.position⟩) := by
      rcases Classical.not_and_iff_not_or_not.mp atom with kind | misspelled
      · exact Phrase.ofToken_no_atom kind
      · exact Phrase.ofToken_misspelled misspelled
    constructor
    · intro same
      rw [refused] at same
      cases same
      exact ⟨atom, rfl⟩
    · rintro ⟨_, rfl⟩
      exact refused

theorem exists_asks_of_error {stack : Stack}
    (refused : (ofTokens stack row).result = .error (.parse error))
    (cause : error.cause ∈ [.missingOperand, .invalidSyntax, .tooDeep]) :
    ∃ index, Asks row index error := by
  have origin : Origin row _ (.parse error) := origin_of_error .whole refused
  generalize shown : BuildError.parse error = failure at origin
  cases origin with
  | tooDeep =>
      cases shown
      exact ⟨0, .tooDeep⟩
  | symbol => cases shown
  | @span span _ reached planned =>
      subst shown
      have cases := planned_plan span.start span.tokens
      generalize plan span.start span.tokens = plan at planned cases
      cases cases with
      | nothing empty =>
          cases planned
          exact ⟨_, .nothing reached empty⟩
      | hollow opened closed encloses =>
          cases planned
          exact ⟨_, .hollow reached opened closed encloses⟩
      | leaf =>
          rw [(ofToken_eq_parse_iff.mp (Plan.done.inj planned)).2] at cause
          simp at cause
      | refused encloses _ long root =>
          cases planned
          obtain ⟨paired, rootless, rfl⟩ := eq_of_operatorRoot_error root cause
          exact ⟨_, .rootless reached encloses long paired rootless⟩
      | split => cases planned

end Expr

def Node.IsFresh : Node → Prop
  | literal value => ∃ n, value = .number n
  | var _ value => value = .blank
  | operator op => op ∈ Operator.all
  | foreign _ => False

theorem Token.isFresh_of_node? {t : Token} {node : Node} (stands : t.node? = some node) :
    node.IsFresh := by
  unfold node? at stands
  split at stands
  · cases stands
    exact ⟨_, rfl⟩
  · cases stands
    exact rfl
  · obtain ⟨op, _, rfl⟩ := Option.map_eq_some_iff.mp stands
    exact op.mem_all
  · contradiction

namespace Expr

theorem Keeps.isFresh {tokens : List Token} {e : Expr} (keeps : Keeps tokens e) :
    ∀ node ∈ e.inOrder, node.IsFresh := by
  intro node member
  have some : some node ∈ e.inOrder.map some := List.mem_map_of_mem member
  rw [← keeps.nodes] at some
  obtain ⟨t, _, stands⟩ := List.mem_map.mp some
  exact Token.isFresh_of_node? stands

theorem isPlain_of_isFresh {e : Expr} (fresh : ∀ node ∈ e.inOrder, node.IsFresh) :
    e.isPlain = true := by
  induction e with
  | literal value => rfl
  | var name value => rfl
  | foreign kind => exact (fresh (.foreign kind) (List.mem_singleton_self _)).elim
  | binary op left right ihLeft ihRight =>
      simp only [inOrder, List.forall_mem_append, List.forall_mem_cons] at fresh
      rw [isPlain, ihLeft fresh.1, ihRight fresh.2.2]
      rfl

end Expr

def EvalError.isInternal : EvalError → Bool
  | unknownNode _ | unknownOperator _ => true
  | _ => false

inductive EvalError.Arises : EvalError → Prop
  | tooDeep : Arises .tooDeep
  | target : Arises .targetNotVariable
  | divisor : Arises .dividedByZero
  | overflow (op : Operator) : Arises (.overflow op.symbol)
  | operand (op : Operator) : Arises (.notNumeric op.symbol)

theorem Operator.arises_of_apply {op : Operator} (compute : op ≠ .assign) {a b : Value}
    {error : EvalError} (failed : op.apply a b = .error error) : error.Arises := by
  by_cases takes : op.takesAny = false → a.kind = .numeric ∧ b.kind = .numeric
  · rcases apply_gives compute takes with ⟨value, came, _⟩ | ⟨other, same, reason⟩
    · rw [came] at failed
      contradiction
    · rw [same] at failed
      cases failed
      cases reason with
      | dividedByZero => exact .divisor
      | overflow => exact .overflow op
  · obtain ⟨number, other⟩ := Classical.not_imp.mp takes
    rw [apply_notNumeric number other] at failed
    cases failed
    exact .operand op

namespace Expr

theorem arises_of_grant {room calls : Nat} {result : Except EvalError Value} {error : EvalError}
    (failed : grant room calls result = .error error)
    (arises : ∀ error, result = .error error → error.Arises) : error.Arises := by
  by_cases enough : calls ≤ room
  · rw [grant_of_le enough] at failed
    exact arises error failed
  · rw [grant_of_lt (Nat.lt_of_not_le enough)] at failed
    cases failed
    exact .tooDeep

theorem arises_of_evaluateWithin {e : Expr} {room : Nat} {error : EvalError}
    (plain : e.isPlain = true) (failed : (e.evaluateWithin room).result = .error error) :
    error.Arises := by
  induction e generalizing room error with
  | literal value => exact arises_of_grant failed nofun
  | var name value => exact arises_of_grant failed nofun
  | foreign kind => contradiction
  | binary op left right ihLeft ihRight =>
      simp only [isPlain, Bool.and_eq_true] at plain
      cases operation op left with
      | assign name old =>
          rw [result_assign] at failed
          exact ihRight plain.2 failed
      | refuse target =>
          rw [evaluateWithin_assign_other _ _ _ target] at failed
          refine arises_of_grant failed ?_
          rintro _ ⟨⟩
          exact .target
      | compute compute =>
          rw [result_binary _ _ _ compute] at failed
          cases first : (left.evaluateWithin (room - 1)).result with
          | error other =>
              rw [first] at failed
              cases failed
              exact ihLeft plain.1 first
          | ok a =>
              cases second : (right.evaluateWithin (room - 1)).result with
              | error other =>
                  rw [first, second] at failed
                  cases failed
                  exact ihRight plain.2 second
              | ok b =>
                  rw [first, second] at failed
                  exact Operator.arises_of_apply compute failed

theorem not_isInternal_of_evaluateWithin {e : Expr} {room : Nat} {error : EvalError}
    (plain : e.isPlain = true) (failed : (e.evaluateWithin room).result = .error error) :
    error.isInternal = false := by
  cases arises_of_evaluateWithin plain failed <;> rfl

theorem isPlain_iterate {e : Expr} (plain : e.isPlain = true) (stack : Stack) (count : Nat) :
    ((fun tree : Expr => (tree.evaluate stack).tree)^[count] e).isPlain = true := by
  induction count with
  | zero => exact plain
  | succ count ih => rw [Function.iterate_succ_apply', isPlain_evaluate_tree, ih]

end Expr

theorem Lexeme.create_of_first? {cs text : List Char} {kind : TokenKind} {priority : Int}
    (found : first? cs = some (.token kind priority text)) (position : Int) :
    Token.create (String.ofList text) kind position =
      .ok ⟨String.ofList text, kind, priority, position⟩ := by
  obtain ⟨rest, _, _, weighed, _⟩ := first?_eq_some found
  simp only [Token.create, weighed]

/-- No line leads to an error that only guards against what is no token or no expression. A token can
be made of whatever is found anywhere in the line. If the line has tokens, those that are spelled as
leaves are not refused as leaves, positions are asked for only where there are tokens, and no operator
is unknown. What is built from them has literals, cells that hold zero and operators in it and nothing
else, and it can be evaluated any number of times without a node or an operator that is unknown. -/
theorem Line.unreached (stack : Stack) (line : String) :
    (∀ front behind text kind priority, line.toList = front ++ behind →
      Lexeme.first? behind = some (.token kind priority text) →
      Token.create (String.ofList text) kind front.length =
        .ok ⟨String.ofList text, kind, priority, front.length⟩) ∧
    ∀ tokens, Token.scan line = .ok tokens →
      (∀ t ∈ tokens, t.kind = .literal ∨ t.kind = .identifier →
        ∀ error, Expr.ofToken t ≠ .error (.parse error)) ∧
      (∀ symbol, (Expr.ofTokens stack tokens).result ≠ .error (.fault (.notAnOperator symbol))) ∧
      (∀ error, (Expr.ofTokens stack tokens).result = .error (.parse error) →
        error.cause ∈ [.missingOperand, .invalidSyntax, .tooDeep] →
        ∃ index, Expr.Asks tokens index error) ∧
      (∀ index error, Expr.Asks tokens index error →
        error.position = Token.positionAt? tokens index ∧ (tokens ≠ [] → index < tokens.length)) ∧
      ∀ e, (Expr.ofTokens stack tokens).result = .ok e →
        (∀ node ∈ e.inOrder, node.IsFresh) ∧
        ∀ other count error,
          (((fun tree : Expr => (tree.evaluate other).tree)^[count] e).evaluate other).result =
            .error error → error.isInternal = false := by
  refine ⟨fun _ _ _ _ _ _ found => Lexeme.create_of_first? found _, ?_⟩
  intro tokens scanned
  have wellFormed := Token.wellFormed_of_scan scanned
  refine ⟨?_, ?_, fun _ => Expr.exists_asks_of_error, fun _ _ => Expr.Asks.position_eq, ?_⟩
  · intro t member kind error refused
    exact (Expr.ofToken_eq_parse_iff.mp refused).1 ⟨kind, (wellFormed t member).spelled⟩
  · intro symbol failed
    have built : Phrase.Built tokens (Expr.ofTokens stack tokens).result :=
      Phrase.built_build _ _ _ wellFormed
    rw [failed] at built
    -- The only fault of building is an integer that is too long.
    generalize shown : Fault.notAnOperator symbol = fault at built
    cases built with
    | tooLong => contradiction
  · intro e built
    have fresh := (Expr.keeps_of_build built).isFresh
    refine ⟨fresh, ?_⟩
    intro other count error failed
    have plain := Expr.isPlain_iterate (Expr.isPlain_of_isFresh fresh) other count
    exact Expr.not_isInternal_of_evaluateWithin plain failed

/-- `(x<-1)/0` can be evaluated twice and again, and fails for its zero each time. In `()` the position
that is asked for is that of the second token. -/
theorem Line.unreached_quotient :
    Token.create (String.ofList ['x']) .identifier 1 =
      .ok ⟨String.ofList ['x'], .identifier, 999, 1⟩ ∧
    (∃ tokens e, Token.scan "(x<-1)/0" = .ok tokens ∧
      (Expr.ofTokens .empty tokens).result = .ok e ∧
      (∀ t ∈ tokens, t.kind = .literal ∨ t.kind = .identifier →
        ∀ error, Expr.ofToken t ≠ .error (.parse error)) ∧
      (∀ node ∈ e.inOrder, node.IsFresh) ∧
      (((fun tree : Expr => (tree.evaluate .empty).tree)^[2] e).evaluate .empty).result =
        .error .dividedByZero ∧
      EvalError.dividedByZero.isInternal = false) ∧
    ∃ tokens index, Token.scan "()" = .ok tokens ∧
      (Expr.ofTokens .empty tokens).result = .error (.parse ⟨.missingOperand, some 1⟩) ∧
      Token.positionAt? tokens index = some 1 ∧ index < tokens.length := by
  refine ⟨?_, ?_, ?_⟩
  · exact (unreached .empty "(x<-1)/0").1 ['('] ['x', '<', '-', '1', ')', '/', '0'] ['x'] .identifier 999
      (by decide) (by decide +kernel)
  · let tokens : List Token := [⟨"(", .delimiter, -1, 0⟩, ⟨"x", .identifier, 999, 1⟩,
      ⟨"<-", .operator, 0, 2⟩, ⟨"1", .literal, 1000, 4⟩, ⟨")", .delimiter, -1, 5⟩,
      ⟨"/", .operator, 2, 6⟩, ⟨"0", .literal, 1000, 7⟩]
    let e : Expr := .binary .div (.binary .assign (.var "x" .blank) (.literal (.number (.int 1))))
      (.literal (.number (.int 0)))
    have scanned : Token.scan "(x<-1)/0" = .ok tokens := by decide +kernel
    have built : (Expr.ofTokens .empty tokens).result = .ok e := by decide +kernel
    have failed : (((fun tree : Expr => (tree.evaluate .empty).tree)^[2] e).evaluate .empty).result =
        .error .dividedByZero := by decide +kernel
    obtain ⟨leaves, _, _, _, trees⟩ := (unreached .empty "(x<-1)/0").2 tokens scanned
    exact ⟨tokens, e, scanned, built, leaves, (trees e built).1, failed,
      (trees e built).2 .empty 2 _ failed⟩
  · let tokens : List Token := [⟨"(", .delimiter, -1, 0⟩, ⟨")", .delimiter, -1, 1⟩]
    have scanned : Token.scan "()" = .ok tokens := by decide +kernel
    have refused : (Expr.ofTokens .empty tokens).result =
        .error (.parse ⟨.missingOperand, some 1⟩) := by decide +kernel
    obtain ⟨_, _, errors, positions, _⟩ := (unreached .empty "()").2 tokens scanned
    obtain ⟨index, asked⟩ := errors _ refused (by simp)
    obtain ⟨position, bound⟩ := positions index _ asked
    exact ⟨tokens, index, scanned, refused, position.symm, bound (by simp [tokens])⟩

end LineCalc
