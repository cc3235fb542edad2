import Mathlib.Data.List.Perm.Subperm
import LineCalc.Proofs.Expr.Plan

namespace LineCalc

open LineCalc.Span

namespace Expr

/-- The splits of an expression that was built from tokens of `row` between two places, in the order of
the expression. -/
inductive Logged (row : List Token) : (low high : Nat) → Expr → List Split → Prop
  | literal {low high : Nat} {value : Value} : Logged row low high (.literal value) []
  | var {low high : Nat} {name : String} {value : Value} : Logged row low high (.var name value) []
  | binary {low high : Nat} {op : Operator} {left right : Expr} {cut : Split} {sign : Token}
      {first second : List Split} (within : low ≤ cut.start ∧ cut.stop ≤ high)
      (sides : cut.start < cut.root ∧ cut.root + 1 < cut.stop)
      (bare : isWrapped ((row.take cut.stop).drop cut.start) = false)
      (place : row[cut.root]? = some sign) (kind : sign.kind = .operator)
      (symbol : sign.text = op.symbol) (shown : cut.symbol = op.symbol)
      (onLeft : Logged row cut.start cut.root left first)
      (onRight : Logged row (cut.root + 1) cut.stop right second) :
      Logged row low high (.binary op left right) (cut :: first ++ second)

variable {row tokens : List Token} {low high levels start : Nat} {first : Option Int} {e : Expr}

abbrev operatorPlaces (start : Nat) (tokens : List Token) : List Nat :=
  tokens.findIdxs (fun t => t.kind = .operator) start

theorem logged_ofToken {t : Token} (built : ofToken t = .ok e) : Logged row low high e [] := by
  obtain ⟨_, _, _, rfl⟩ := Phrase.ofToken_eq_ok_iff.mp built
  rw [Phrase.expr]
  split
  · exact .literal
  · exact .var

theorem Logged.join {cut : Split} {sign : Token} {left right : Building} {a b : Expr}
    (within : low ≤ cut.start ∧ cut.stop ≤ high) (sides : cut.start < cut.root ∧ cut.root + 1 < cut.stop)
    (bare : isWrapped ((row.take cut.stop).drop cut.start) = false)
    (place : row[cut.root]? = some sign) (kind : sign.kind = .operator) (symbol : sign.text = cut.symbol)
    (onLeft : Logged row cut.start cut.root a left.splits)
    (onRight : Logged row (cut.root + 1) cut.stop b right.splits) (builtLeft : left.result = .ok a)
    (joined : Expr.join cut.symbol a b = .ok e) :
    Logged row low high e (Building.join cut left right).splits := by
  simp only [Building.join, builtLeft]
  unfold Expr.join at joined
  split at joined
  · next op found =>
    cases joined
    have shown := (Operator.symbol_of_ofSymbol? found).symm
    exact .binary within sides bare place kind (symbol.trans shown) shown onLeft onRight
  · contradiction

theorem logged_of_build (part : PartOf row ⟨start, tokens⟩)
    (built : (build first levels start tokens).result = .ok e) :
    Logged row start (start + tokens.length) e (build first levels start tokens).splits := by
  induction levels generalizing start tokens e with
  | zero => contradiction
  | succ levels ih =>
      rw [build_succ] at built ⊢
      have cases := planned_plan start tokens
      cases planned : plan start tokens with
      | done result =>
          rw [planned] at built cases
          cases cases with
          | nothing | hollow | refused => contradiction
          | leaf => exact logged_ofToken built
      | split cut left right =>
          obtain ⟨partLeft, partRight⟩ := part.sides planned
          rw [planned] at built cases
          obtain ⟨a, b, builtLeft, builtRight, joined⟩ := Building.result_join_eq_ok_iff.mp built
          have loggedLeft := ih partLeft builtLeft
          have loggedRight := ih partRight builtRight
          cases cases with
          | @split pairs left right sign weight encloses bare root nonemptyLeft nonemptyRight =>
              have length := encloses.length_eq
              have before := List.length_pos_iff.mpr nonemptyLeft
              have behind := List.length_pos_iff.mpr nonemptyRight
              have kind := (operatorRoot_eq_ok_iff.mp root).2.2.1
              have count : (left ++ sign :: right).length = left.length + 1 + right.length := by
                rw [List.length_append, List.length_cons, Nat.add_assoc, Nat.add_comm 1]
              obtain ⟨front, rest, whole, place⟩ := part.exists_inner encloses
              simp only at place
              have inner : (row.take (start + pairs + (left ++ sign :: right).length)).drop
                  (start + pairs) = left ++ sign :: right := by
                rw [whole, ← place, ← List.length_append, List.take_left, List.drop_left]
              have sits : row[start + pairs + left.length]? = some sign := by
                rw [whole, ← place, ← List.length_append]
                simp
              refine .join ⟨by simp, ?_⟩ ⟨by simpa using before, ?_⟩ ?_ sits kind rfl loggedLeft ?_
                builtLeft joined
              · simp only
                omega
              · simp only
                omega
              · rw [inner]
                exact bare
              · simp only [count]
                rw [← Nat.add_assoc, ← Nat.add_assoc]
                exact loggedRight

theorem kind_ne_operator {t : Token} (delimiter : t.isDelimiter = true) : t.kind ≠ .operator := by
  rw [of_decide_eq_true delimiter]
  decide

/-- No parenthesis is an operator, so stripping keeps the operators where they are. -/
theorem operatorPlaces_of_encloses {inner : List Token} {pairs : Nat}
    (encloses : Encloses inner pairs tokens) (start : Nat) :
    operatorPlaces start tokens = operatorPlaces (start + pairs) inner := by
  induction encloses generalizing start with
  | bare => rfl
  | @pair pairs row opener closer opened closed within ih =>
      have noOpener := kind_ne_operator (Token.isDelimiter_of_isOpen opened)
      have noCloser := kind_ne_operator (Token.isDelimiter_of_isClose closed)
      calc
        operatorPlaces start (opener :: row ++ [closer]) = operatorPlaces (start + 1) row := by
          simp [operatorPlaces, List.findIdxs_append, noOpener, noCloser]
        _ = operatorPlaces (start + 1 + pairs) _ := ih (start + 1)
        _ = operatorPlaces (start + (pairs + 1)) _ := by rw [Nat.add_assoc, Nat.add_comm 1]

theorem operatorPlaces_split {left right : List Token} {sign : Token} (kind : sign.kind = .operator)
    (start : Nat) :
    operatorPlaces start (left ++ sign :: right) =
      operatorPlaces start left ++
        (start + left.length) :: operatorPlaces (start + left.length + 1) right := by
  simp [operatorPlaces, List.findIdxs_append, kind]

theorem splits_join_sublist (cut : Split) (left right : Building) :
    (Building.join cut left right).splits.Sublist (cut :: left.splits ++ right.splits) := by
  unfold Building.join
  split
  · exact List.sublist_append_left _ _
  · exact List.Sublist.refl _

theorem subperm_operatorPlaces (first : Option Int) (levels start : Nat) (tokens : List Token) :
    ((build first levels start tokens).splits.map Split.root).Subperm (operatorPlaces start tokens) := by
  induction levels generalizing start tokens with
  | zero => exact List.nil_subperm
  | succ levels ih =>
      rw [build_succ]
      have planned := planned_plan start tokens
      generalize plan start tokens = plan at planned
      cases planned with
      | nothing | hollow | leaf | refused => exact List.nil_subperm
      | @split pairs left right sign weight encloses bare root =>
          have kind := (operatorRoot_eq_ok_iff.mp root).2.2.1
          have onLeft := ih (start + pairs) left
          have onRight := ih (start + pairs + left.length + 1) right
          rw [operatorPlaces_of_encloses encloses, operatorPlaces_split kind]
          refine ((splits_join_sublist _ _ _).map Split.root).subperm.trans ?_
          refine List.Subperm.trans ?_ List.perm_middle.symm.subperm
          rw [List.cons_append, List.map_cons, List.map_append, List.subperm_cons]
          exact ((List.subperm_append_right _).mpr onLeft).trans ((List.subperm_append_left _).mpr onRight)

theorem perm_operatorPlaces (built : (build first levels start tokens).result = .ok e) :
    ((build first levels start tokens).splits.map Split.root).Perm (operatorPlaces start tokens) := by
  induction levels generalizing start tokens e with
  | zero => contradiction
  | succ levels ih =>
      rw [build_succ] at built ⊢
      have planned := planned_plan start tokens
      generalize plan start tokens = plan at built planned
      cases planned with
      | nothing | hollow | refused => contradiction
      | @leaf pairs t encloses =>
          have kind : t.kind ≠ .operator := by
            rcases (Phrase.ofToken_eq_ok_iff.mp built).1 with kind | kind <;> rw [kind] <;> decide
          have none : operatorPlaces (start + pairs) [t] = [] := by simp [operatorPlaces, kind]
          rw [operatorPlaces_of_encloses encloses, none]
          exact List.Perm.refl _
      | @split pairs left right sign weight encloses bare root =>
          obtain ⟨a, b, builtLeft, builtRight, _⟩ := Building.result_join_eq_ok_iff.mp built
          have kind := (operatorRoot_eq_ok_iff.mp root).2.2.1
          rw [operatorPlaces_of_encloses encloses, operatorPlaces_split kind]
          simp only [Plan.carryOut, Building.join, builtLeft, List.cons_append, List.map_cons,
            List.map_append]
          exact (((ih builtLeft).append (ih builtRight)).cons _).trans List.perm_middle.symm

theorem mem_operatorPlaces_iff {i : Nat} :
    i ∈ operatorPlaces 0 tokens ↔ ∃ t, tokens[i]? = some t ∧ t.kind = .operator := by
  rw [operatorPlaces, List.mem_findIdxs_iff_exists_getElem_pos]
  constructor
  · intro found
    rcases found with ⟨short, kind⟩
    exact ⟨tokens[i], List.getElem?_eq_getElem short, of_decide_eq_true kind⟩
  · intro found
    rcases found with ⟨t, place, kind⟩
    rcases List.getElem?_eq_some_iff.mp place with ⟨short, same⟩
    rw [← same] at kind
    exact ⟨short, decide_eq_true kind⟩

/-- Whatever the tokens are, building logs operators only, and none of them twice. If it comes to an
expression, it has logged every operator, in the order of the expression: each operator before its sides,
the left side before the right one, within the part of the row that is left for it. Each part has no outer
parentheses, and something on either side of the operator. -/
theorem splits_of_build (first : Option Int) (levels : Nat) (tokens : List Token) :
    (∀ e, (build first levels 0 tokens).result = .ok e →
      Logged tokens 0 tokens.length e (build first levels 0 tokens).splits ∧
      ∀ i t, tokens[i]? = some t → t.kind = .operator →
        i ∈ (build first levels 0 tokens).splits.map Split.root) ∧
    ((build first levels 0 tokens).splits.map Split.root).Nodup ∧
    ∀ i ∈ (build first levels 0 tokens).splits.map Split.root,
      ∃ t, tokens[i]? = some t ∧ t.kind = .operator := by
  have logged := subperm_operatorPlaces first levels 0 tokens
  refine ⟨?_, ?_, ?_⟩
  · intro e built
    have whole : PartOf tokens ⟨0, tokens⟩ := ⟨⟨[], [], by simp, rfl⟩, id⟩
    have all := perm_operatorPlaces built
    refine ⟨?_, ?_⟩
    · rw [← Nat.zero_add tokens.length]
      exact logged_of_build whole built
    · intro i t place kind
      exact all.mem_iff.mpr (mem_operatorPlaces_iff.mpr ⟨t, place, kind⟩)
  · obtain ⟨places, same, part⟩ := logged
    exact same.nodup_iff.mp (List.nodup_findIdxs.sublist part)
  · intro i member
    exact mem_operatorPlaces_iff.mp (logged.subset member)

/-- The product of `((1-2))*(x+3)` is split before the difference and the sum, which lie within
parentheses. -/
theorem splits_of_build_product :
    ∃ tokens e, Token.scan "((1-2))*(x+3)" = .ok tokens ∧
      (ofTokens .empty tokens).result = .ok e ∧
      (ofTokens .empty tokens).splits = [⟨0, 13, 7, "*"⟩, ⟨2, 5, 3, "-"⟩, ⟨9, 12, 10, "+"⟩] ∧
      Logged tokens 0 tokens.length e (ofTokens .empty tokens).splits := by
  let tokens : List Token := [⟨"(", .delimiter, -1, 0⟩, ⟨"(", .delimiter, -1, 1⟩,
    ⟨"1", .literal, 1000, 2⟩, ⟨"-", .operator, 1, 3⟩, ⟨"2", .literal, 1000, 4⟩,
    ⟨")", .delimiter, -1, 5⟩, ⟨")", .delimiter, -1, 6⟩, ⟨"*", .operator, 2, 7⟩,
    ⟨"(", .delimiter, -1, 8⟩, ⟨"x", .identifier, 999, 9⟩, ⟨"+", .operator, 1, 10⟩,
    ⟨"3", .literal, 1000, 11⟩, ⟨")", .delimiter, -1, 12⟩]
  let e : Expr := .binary .mul
    (.binary .sub (.literal (.number (.int 1))) (.literal (.number (.int 2))))
    (.binary .add (.var "x" .blank) (.literal (.number (.int 3))))
  have built : (ofTokens .empty tokens).result = .ok e := by decide +kernel
  have logged := (splits_of_build _ Stack.empty.spanRoom tokens).1 e built
  exact ⟨tokens, e, by decide +kernel, built, by decide +kernel, logged.1⟩

end Expr

end LineCalc
