import LineCalc.Proofs.Expr.Plan
import LineCalc.Proofs.Expr.Shape

namespace LineCalc

open LineCalc.Span

def Expr.inOrder : Expr → List Node
  | literal value => [.literal value]
  | var name value => [.var name value]
  | binary op left right => left.inOrder ++ .operator op :: right.inOrder
  | foreign kind => [.foreign kind]

def Token.node? (t : Token) : Option Node :=
  match t.kind with
  | .literal => some (.literal (.number (.ofLiteral t.text.toList)))
  | .identifier => some (.var t.text .blank)
  | .operator => (Operator.ofSymbol? t.text).map .operator
  | .delimiter => none

namespace Span

structure Balanced (tokens : List Token) : Prop where
  front : ∀ front, front <+: tokens → front.countP Token.isClose ≤ front.countP Token.isOpen
  whole : tokens.countP Token.isClose = tokens.countP Token.isOpen

def Closes (depth : Nat) (tokens : List Token) : Prop :=
  (∀ front, front <+: tokens → front.countP Token.isClose ≤ depth + front.countP Token.isOpen) ∧
    tokens.countP Token.isClose = depth + tokens.countP Token.isOpen

theorem closes_nil_iff {depth : Nat} : Closes depth [] ↔ depth = 0 := by
  simp [Closes]
  omega

theorem closes_cons_iff {depth after : Nat} {t : Token} {rest : List Token}
    (step : depth + [t].countP Token.isOpen = after + [t].countP Token.isClose) :
    Closes depth (t :: rest) ↔ Closes after rest := by
  have counts (row : List Token) :
      (t :: row).countP Token.isClose ≤ depth + (t :: row).countP Token.isOpen ↔
        row.countP Token.isClose ≤ after + row.countP Token.isOpen := by
    rw [← List.singleton_append, List.countP_append, List.countP_append]
    omega
  have total : (t :: rest).countP Token.isClose = depth + (t :: rest).countP Token.isOpen ↔
      rest.countP Token.isClose = after + rest.countP Token.isOpen := by
    rw [← List.singleton_append, List.countP_append, List.countP_append]
    omega
  rw [Closes, Closes, total]
  refine and_congr_left fun _ => ⟨?_, ?_⟩
  · intro all front within
    exact (counts front).mp (all (t :: front) ((List.prefix_cons_inj t).mpr within))
  · intro all front within
    rcases List.prefix_cons_iff.mp within with rfl | ⟨others, rfl, inner⟩
    · exact Nat.zero_le _
    · exact (counts others).mpr (all others inner)

theorem balance_eq_balanced_iff {depth : Nat} {tokens : List Token} :
    balance depth tokens = .balanced ↔ Closes depth tokens := by
  fun_induction balance depth tokens with
  | case1 => simp [closes_nil_iff]
  | case2 depth unclosed => simp [closes_nil_iff, unclosed]
  | case3 depth t rest opened ih =>
      rw [ih, closes_cons_iff]
      simp [opened, Token.isClose_of_isOpen opened]
  | case4 t rest _ close =>
      simp only [reduceCtorEq, false_iff]
      rintro ⟨front, _⟩
      have first := front [t] ((List.prefix_cons_inj t).mpr List.nil_prefix)
      simp [close, Token.isOpen_of_isClose close] at first
  | case5 t rest _ close depth ih =>
      rw [ih, closes_cons_iff]
      simp [close, Token.isOpen_of_isClose close]
  | case6 depth t rest notOpen notClose ih =>
      rw [ih, closes_cons_iff]
      simp [notOpen, notClose]

theorem balanced_iff {tokens : List Token} : balance 0 tokens = .balanced ↔ Balanced tokens := by
  rw [balance_eq_balanced_iff, Closes]
  simp only [Nat.zero_add]
  exact ⟨fun h => ⟨h.1, h.2⟩, fun h => ⟨h.front, h.whole⟩⟩

end Span

namespace Expr

structure Keeps (tokens : List Token) (e : Expr) : Prop where
  spelled : ∀ t ∈ tokens, t.kind.Spells t.text.toList
  balanced : balance 0 tokens = .balanced
  nodes : (tokens.filter fun t => !t.isDelimiter).map Token.node? = e.inOrder.map some

variable {t : Token} {a b e : Expr} {left right tokens : List Token} {pairs : Nat}

theorem keeps_ofToken (built : ofToken t = .ok e) : Keeps [t] e := by
  rcases Phrase.ofToken_eq_ok_iff.mp built with ⟨kind, spelled, _, rfl⟩
  have plain := Phrase.isDelimiter_of_atom kind
  refine ⟨by simpa using spelled, ?_, ?_⟩
  · rw [balance_plain [] 0 plain]
    rfl
  · rcases kind with kind | kind <;>
      simp [plain, Phrase.expr, kind, inOrder, Token.node?]

theorem spells_of_isOpen (opened : t.isOpen = true) : t.kind.Spells t.text.toList := by
  simp only [Token.isOpen, Token.isDelimiter, Bool.and_eq_true, decide_eq_true_eq] at opened
  rw [opened.1, opened.2]
  exact .inl (by simp)

theorem spells_of_isClose (closed : t.isClose = true) : t.kind.Spells t.text.toList := by
  simp only [Token.isClose, Token.isDelimiter, Bool.and_eq_true, decide_eq_true_eq] at closed
  rw [closed.1, closed.2]
  exact .inr (by simp)

theorem Keeps.of_encloses (keeps : Keeps tokens e) {row : List Token}
    (encloses : Encloses tokens pairs row) : Keeps row e := by
  induction encloses with
  | bare => exact keeps
  | @pair _ row opener closer opened closed _ ih =>
      refine ⟨?_, ?_, ?_⟩
      · simp only [List.cons_append, List.forall_mem_cons, List.forall_mem_append]
        exact ⟨spells_of_isOpen opened, ih.spelled, spells_of_isClose closed, by simp⟩
      · rw [List.cons_append, balance_open _ 0 opened, balance_append ih.balanced 1,
          balance_close_succ [] 0 closed]
        rfl
      · rw [← ih.nodes]
        simp [Token.isDelimiter_of_isOpen opened, Token.isDelimiter_of_isClose closed]

theorem Keeps.join (keepsLeft : Keeps left a) (keepsRight : Keeps right b)
    (kind : t.kind = .operator) (joined : join t.text a b = .ok e) :
    Keeps (left ++ t :: right) e := by
  have plain := Phrase.isDelimiter_of_operator kind
  unfold Expr.join at joined
  split at joined
  · next op found =>
    cases joined
    refine ⟨?_, ?_, ?_⟩
    · simp only [List.forall_mem_append, List.forall_mem_cons]
      refine ⟨keepsLeft.spelled, ?_, keepsRight.spelled⟩
      rw [kind]
      exact ⟨op, by rw [Operator.symbol_of_ofSymbol? found]⟩
    · have passed := balance_append keepsLeft.balanced 0 (t :: right)
      rw [Nat.zero_add] at passed
      rw [passed, balance_plain _ 0 plain]
      exact keepsRight.balanced
    · have own : t.node? = some (.operator op) := by simp [Token.node?, kind, found]
      simp [plain, own, keepsLeft.nodes, keepsRight.nodes, Expr.inOrder]
  · contradiction

theorem keeps_of_build {first : Option Int} {levels start : Nat}
    (built : (build first levels start tokens).result = .ok e) : Keeps tokens e := by
  induction levels generalizing start tokens e with
  | zero => contradiction
  | succ levels ih =>
      rw [build_succ] at built
      have planned := planned_plan start tokens
      generalize plan start tokens = plan at built planned
      cases planned with
      | nothing | hollow | refused => contradiction
      | leaf encloses => exact (keeps_ofToken built).of_encloses encloses
      | split encloses _ root =>
          obtain ⟨a, b, builtLeft, builtRight, joined⟩ := Building.result_join_eq_ok_iff.mp built
          have kind := (operatorRoot_eq_ok_iff.mp root).2.2.1
          exact ((ih builtLeft).join (ih builtRight) kind joined).of_encloses encloses

/-- Whatever the tokens and their priorities are, what is built from them holds all of them but
parentheses, once and in order: literals as their numbers, identifiers as cells that nothing was
assigned to, operators as themselves. The parentheses pair, and there are no other delimiters. -/
theorem inOrder_of_build (first : Option Int) (levels start : Nat) (tokens : List Token) (e : Expr)
    (built : (build first levels start tokens).result = .ok e) :
    (∀ t ∈ tokens, t.isDelimiter = true → t.text = "(" ∨ t.text = ")") ∧ Balanced tokens ∧
      (tokens.filter fun t => !t.isDelimiter).map Token.node? = e.inOrder.map some ∧
      ∀ t ∈ tokens, t.kind.Spells t.text.toList := by
  have keeps := keeps_of_build built
  refine ⟨?_, balanced_iff.mp keeps.balanced, keeps.nodes, keeps.spelled⟩
  intro t member delimiter
  have spelled := keeps.spelled t member
  rw [of_decide_eq_true delimiter] at spelled
  rcases spelled with opener | closer
  · exact .inl (String.toList_inj.mp (by rw [opener]; rfl))
  · exact .inr (String.toList_inj.mp (by rw [closer]; rfl))

/-- The tokens of `2*(x+4)` with priorities of their own, some of which outweigh the parentheses. -/
theorem inOrder_of_build_product :
    ∃ tokens e, (ofTokens .empty tokens).result = .ok e ∧
      tokens.map Token.priority = [50000, -7, 3, 30000, 20000, 30000, 3] ∧ Balanced tokens ∧
      (tokens.filter fun t => !t.isDelimiter).map Token.node? = e.inOrder.map some ∧
      e.inOrder = [.literal (.number (.int 2)), .operator .mul, .var "x" .blank, .operator .add,
        .literal (.number (.int 4))] := by
  let tokens : List Token := [⟨"2", .literal, 50000, 9⟩, ⟨"*", .operator, -7, 0⟩,
    ⟨"(", .delimiter, 3, 5⟩, ⟨"x", .identifier, 30000, 5⟩, ⟨"+", .operator, 20000, -1⟩,
    ⟨"4", .literal, 30000, 2⟩, ⟨")", .delimiter, 3, 1⟩]
  let e : Expr := .binary .mul (.literal (.number (.int 2)))
    (.binary .add (.var "x" .blank) (.literal (.number (.int 4))))
  have built : (ofTokens .empty tokens).result = .ok e := by decide +kernel
  obtain ⟨_, balanced, nodes, _⟩ := inOrder_of_build _ _ _ tokens e built
  exact ⟨tokens, e, built, rfl, balanced, nodes, rfl⟩

end Expr

end LineCalc
