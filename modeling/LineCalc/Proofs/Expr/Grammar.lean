import LineCalc.Expr.Build
import LineCalc.Proofs.Expr.Span
import LineCalc.Proofs.Token.Pattern

/-! The grammar of expressions.

There are four levels of operators. A row of one level is a chain of rows of the next one, grouped
to the left, and a row of the last level is a chain of atoms: literals, identifiers, and rows of the
first level between parentheses. Parentheses pair within what the grammar derives, so the splitting
of a span sees all of a phrase or nothing of it. -/

namespace LineCalc

def Operator.ofLevel : Nat → List Operator
  | 0 => [assign, le, ge, ne, eq, lt, gt]
  | 1 => [add, sub]
  | 2 => [mul, div, mod]
  | 3 => [pow]
  | _ => []

def Number.ofLiteral (cs : List Char) : Number :=
  if '.' ∈ cs then .ofDecimal cs else .int (Text.numberOfDigits cs)

/-- A derivation, without the steps from a level to the next. -/
inductive Phrase
  | atom (t : Token)
  | group (opener : Token) (inner : Phrase) (closer : Token)
  | chain (left : Phrase) (op : Operator) (sign : Token) (right : Phrase)

namespace Phrase

def tokens : Phrase → List Token
  | atom t => [t]
  | group opener inner closer => opener :: inner.tokens ++ [closer]
  | chain left _ sign right => left.tokens ++ sign :: right.tokens

def expr : Phrase → Expr
  | atom t =>
    if t.kind = .literal then .literal (.number (.ofLiteral t.text.toList)) else .var t.text .blank
  | group _ inner _ => inner.expr
  | chain left op _ right => .binary op left.expr right.expr

inductive Derives : (level : Nat) → Phrase → Prop
  | atom {t : Token} (kind : t.kind = .literal ∨ t.kind = .identifier) : Derives 4 (atom t)
  | group {opener closer : Token} {inner : Phrase} (opened : opener.isOpen = true)
      (closed : closer.isClose = true) (within : Derives 0 inner) :
      Derives 4 (group opener inner closer)
  | tighter {level : Nat} {p : Phrase} (next : Derives (level + 1) p) : Derives level p
  | chain {level : Nat} {left right : Phrase} {op : Operator} {sign : Token}
      (member : op ∈ Operator.ofLevel level) (kind : sign.kind = .operator)
      (symbol : sign.text = op.symbol) (first : Derives level left)
      (second : Derives (level + 1) right) : Derives level (chain left op sign right)

/-- Every token is of the kind that its place asks for, whatever the levels. -/
def Formed : Phrase → Prop
  | atom t => t.kind = .literal ∨ t.kind = .identifier
  | group opener inner closer => opener.isOpen = true ∧ closer.isClose = true ∧ inner.Formed
  | chain left op sign right =>
    sign.kind = .operator ∧ sign.text = op.symbol ∧ left.Formed ∧ right.Formed

variable {p : Phrase} {level : Nat}

theorem Derives.formed (derives : p.Derives level) : p.Formed := by
  induction derives with
  | atom kind => exact kind
  | group opened closed _ ih => exact ⟨opened, closed, ih⟩
  | tighter _ ih => exact ih
  | chain _ kind symbol _ _ ihLeft ihRight => exact ⟨kind, symbol, ihLeft, ihRight⟩

theorem Derives.level_le (derives : p.Derives level) : level ≤ 4 := by
  induction derives with
  | atom | group => exact Nat.le_refl 4
  | tighter _ ih => omega
  | chain _ _ _ _ _ ih => exact ih

theorem Derives.loosen {lower : Nat} (derives : p.Derives level) (le : lower ≤ level) :
    p.Derives lower := by
  induction level with
  | zero =>
      rw [Nat.le_zero.mp le]
      exact derives
  | succ level ih =>
      rcases Nat.le_succ_iff.mp le with below | same
      · exact ih (.tighter derives) below
      · rw [same]
        exact derives

theorem Derives.atom_inv {t : Token} (derives : (Phrase.atom t).Derives level) :
    t.kind = .literal ∨ t.kind = .identifier := by
  generalize same : Phrase.atom t = q at derives
  induction derives with
  | atom kind =>
      cases same
      exact kind
  | group | chain => contradiction
  | tighter _ ih => exact ih same

theorem Derives.group_inv {opener closer : Token} {inner : Phrase}
    (derives : (Phrase.group opener inner closer).Derives level) :
    opener.isOpen = true ∧ closer.isClose = true ∧ inner.Derives 0 := by
  generalize same : Phrase.group opener inner closer = q at derives
  induction derives with
  | atom | chain => contradiction
  | group opened closed within =>
      cases same
      exact ⟨opened, closed, within⟩
  | tighter _ ih => exact ih same

theorem Derives.chain_inv {left right : Phrase} {op : Operator} {sign : Token}
    (derives : (Phrase.chain left op sign right).Derives level) :
    ∃ own, level ≤ own ∧ op ∈ Operator.ofLevel own ∧ sign.kind = .operator ∧
      sign.text = op.symbol ∧ left.Derives own ∧ right.Derives (own + 1) := by
  generalize same : Phrase.chain left op sign right = q at derives
  induction derives with
  | atom | group => contradiction
  | @tighter level _ _ ih =>
      rcases ih same with ⟨own, le, rest⟩
      exact ⟨own, by omega, rest⟩
  | @chain level _ _ _ _ member kind symbol first second =>
      cases same
      exact ⟨level, Nat.le_refl level, member, kind, symbol, first, second⟩

theorem priority_of_mem_ofLevel {op : Operator} (member : op ∈ Operator.ofLevel level) :
    op.priority = level := by
  match level with
  | 0 | 1 | 2 | 3 => revert op; decide
  | _ + 4 => cases member

theorem exists_mem_ofLevel (op : Operator) : ∃ level ≤ 3, op ∈ Operator.ofLevel level := by
  cases op <;> decide

open LineCalc.Span

theorem isDelimiter_of_atom {t : Token} (kind : t.kind = .literal ∨ t.kind = .identifier) :
    t.isDelimiter = false := by
  rcases kind with kind | kind <;> simp [Token.isDelimiter, kind]

theorem isDelimiter_of_operator {t : Token} (kind : t.kind = .operator) :
    t.isDelimiter = false := by
  simp [Token.isDelimiter, kind]

theorem tokens_ne_nil (p : Phrase) : p.tokens ≠ [] := by
  cases p <;> simp [tokens]

theorem group_append (opener : Token) (inner : Phrase) (closer : Token) (rest : List Token) :
    (group opener inner closer).tokens ++ rest = opener :: (inner.tokens ++ closer :: rest) := by
  simp [tokens]

theorem chain_append (left : Phrase) (op : Operator) (sign : Token) (right : Phrase)
    (rest : List Token) :
    (chain left op sign right).tokens ++ rest = left.tokens ++ sign :: (right.tokens ++ rest) := by
  simp [tokens]

theorem forall_mem_group {P : Token → Prop} {opener closer : Token} {inner : Phrase}
    (all : ∀ t ∈ (group opener inner closer).tokens, P t) : ∀ t ∈ inner.tokens, P t := by
  intro t member
  exact all t (by simp [tokens, member])

theorem forall_mem_chain {P : Token → Prop} {left right : Phrase} {op : Operator} {sign : Token}
    (all : ∀ t ∈ (chain left op sign right).tokens, P t) :
    (∀ t ∈ left.tokens, P t) ∧ P sign ∧ ∀ t ∈ right.tokens, P t := by
  refine ⟨?_, all sign (by simp [tokens]), ?_⟩
  · intro t member
    exact all t (by simp [tokens, member])
  · intro t member
    exact all t (by simp [tokens, member])

theorem Formed.closesLast_append (formed : p.Formed) (depth : Nat) (rest : List Token) :
    closesLast depth (p.tokens ++ rest) = closesLast depth rest := by
  induction p generalizing depth rest with
  | atom t => exact closesLast_plain rest depth (isDelimiter_of_atom formed)
  | group opener inner closer ih =>
      rcases formed with ⟨opened, closed, within⟩
      rw [group_append, closesLast_open _ depth opened, ih within,
        closesLast_close_succ _ depth closed]
  | chain left op sign right ihLeft ihRight =>
      rcases formed with ⟨kind, _, first, second⟩
      rw [chain_append, ihLeft first, closesLast_plain _ depth (isDelimiter_of_operator kind),
        ihRight second]

theorem Formed.balance_append (formed : p.Formed) (depth : Nat) (rest : List Token) :
    balance depth (p.tokens ++ rest) = balance depth rest := by
  induction p generalizing depth rest with
  | atom t => exact balance_plain rest depth (isDelimiter_of_atom formed)
  | group opener inner closer ih =>
      rcases formed with ⟨opened, closed, within⟩
      rw [group_append, balance_open _ depth opened, ih within, balance_close_succ _ depth closed]
  | chain left op sign right ihLeft ihRight =>
      rcases formed with ⟨kind, _, first, second⟩
      rw [chain_append, ihLeft first, balance_plain _ depth (isDelimiter_of_operator kind),
        ihRight second]

theorem Formed.candidates_append (formed : p.Formed) (depth index : Nat) (rest : List Token) :
    candidates depth index (p.tokens ++ rest) =
      candidates depth index p.tokens ++ candidates depth (index + p.tokens.length) rest := by
  induction p generalizing depth index rest with
  | atom t => simp [tokens, candidates_plain _ _ _ (isDelimiter_of_atom formed), candidates]
  | group opener inner closer ih =>
      rcases formed with ⟨opened, closed, within⟩
      have place : index + (group opener inner closer).tokens.length =
          index + 1 + inner.tokens.length + 1 := by
        simp only [tokens, List.length_cons, List.length_append, List.length_nil]
        omega
      rw [group_append, candidates_open _ depth index opened, ih within,
        candidates_close _ _ _ closed, place, ← List.append_nil (group opener inner closer).tokens,
        group_append, candidates_open _ depth index opened, ih within, candidates_close _ _ _ closed]
      simp [candidates]
  | chain left op sign right ihLeft ihRight =>
      rcases formed with ⟨kind, _, first, second⟩
      have plain := isDelimiter_of_operator kind
      have place : index + (left.tokens ++ sign :: right.tokens).length =
          index + left.tokens.length + 1 + right.tokens.length := by
        simp only [List.length_cons, List.length_append]
        omega
      rw [chain_append, tokens, ihLeft first, candidates_plain _ _ _ plain, ihRight second,
        ihLeft first, candidates_plain _ _ _ plain, place]
      simp

theorem Formed.candidates_group {opener closer : Token} {inner : Phrase}
    (formed : (group opener inner closer).Formed) (depth index : Nat) :
    candidates depth index (group opener inner closer).tokens =
      candidates (depth + 1) (index + 1) inner.tokens := by
  rcases formed with ⟨opened, closed, within⟩
  rw [← List.append_nil (group opener inner closer).tokens, group_append,
    candidates_open _ depth index opened, within.candidates_append, candidates_close _ _ _ closed]
  simp [candidates]

theorem Formed.candidates_chain {left right : Phrase} {op : Operator} {sign : Token}
    (formed : (chain left op sign right).Formed) (depth index : Nat) :
    candidates depth index (chain left op sign right).tokens =
      candidates depth index left.tokens ++
        ⟨index + left.tokens.length, sign,
          if depth = 0 then sign.priority else sign.priority + enclosedWeight⟩ ::
        candidates depth (index + left.tokens.length + 1) right.tokens := by
  rcases formed with ⟨kind, _, first, _⟩
  rw [tokens, first.candidates_append, candidates_plain _ _ _ (isDelimiter_of_operator kind)]

theorem Formed.isWrapped_group {opener closer : Token} {inner : Phrase}
    (formed : (group opener inner closer).Formed) :
    isWrapped (group opener inner closer).tokens = true := by
  rcases formed with ⟨opened, closed, within⟩
  simp only [tokens, List.cons_append, isWrapped, opened, Bool.true_and]
  rw [within.closesLast_append, closesLast_close_zero _ closed]
  rfl

theorem Formed.isWrapped_append (formed : p.Formed) (t : Token) (rest : List Token) :
    isWrapped (p.tokens ++ t :: rest) = false := by
  induction p generalizing t rest with
  | atom u =>
      have plain := isDelimiter_of_atom formed
      simp [tokens, isWrapped, Token.isOpen_of_not_isDelimiter plain]
  | group opener inner closer =>
      rcases formed with ⟨_, closed, within⟩
      rw [group_append, isWrapped, within.closesLast_append, closesLast_close_zero _ closed]
      simp
  | chain left op sign right ihLeft =>
      rcases formed with ⟨_, _, first, _⟩
      rw [chain_append]
      exact ihLeft first _ _

theorem Formed.isWrapped_atom {t : Token} (formed : (atom t).Formed) :
    isWrapped (atom t).tokens = false := by
  have plain := isDelimiter_of_atom formed
  simp [tokens, isWrapped, Token.isOpen_of_not_isDelimiter plain]

theorem Formed.isWrapped_chain {left right : Phrase} {op : Operator} {sign : Token}
    (formed : (chain left op sign right).Formed) :
    isWrapped (chain left op sign right).tokens = false := by
  rcases formed with ⟨_, _, first, _⟩
  exact first.isWrapped_append sign right.tokens

theorem interior_group (opener : Token) (inner : Phrase) (closer : Token) :
    Span.interior (group opener inner closer).tokens = inner.tokens := by
  simp [tokens, Span.interior]

theorem length_tokens_chain (left : Phrase) (op : Operator) (sign : Token) (right : Phrase) :
    3 ≤ (chain left op sign right).tokens.length := by
  have leftNonempty := List.length_pos_iff.mpr left.tokens_ne_nil
  have rightNonempty := List.length_pos_iff.mpr right.tokens_ne_nil
  simp only [tokens, List.length_append, List.length_cons]
  omega

/-- Two phrases of the same tokens, as far as outer parentheses tell: only where a chain is divided
is left open. -/
inductive Alike : Phrase → Phrase → Prop
  | atom (t : Token) : Alike (atom t) (atom t)
  | group (opener closer : Token) {inner inner' : Phrase} (within : inner.tokens = inner'.tokens) :
      Alike (group opener inner closer) (group opener inner' closer)
  | chain {left right left' right' : Phrase} {op op' : Operator} {sign sign' : Token}
      (same : left.tokens ++ sign :: right.tokens = left'.tokens ++ sign' :: right'.tokens) :
      Alike (chain left op sign right) (chain left' op' sign' right')

theorem Formed.alike {q : Phrase} (formed : p.Formed) (formed' : q.Formed)
    (same : p.tokens = q.tokens) : p.Alike q := by
  have wrapped := congrArg isWrapped same
  cases p with
  | atom t =>
      rw [formed.isWrapped_atom] at wrapped
      cases q with
      | atom u =>
          cases same
          exact .atom t
      | group opener inner closer =>
          rw [formed'.isWrapped_group] at wrapped
          contradiction
      | chain left op sign right =>
          have long := length_tokens_chain left op sign right
          rw [← same] at long
          simp [tokens] at long
  | group opener inner closer =>
      rw [formed.isWrapped_group] at wrapped
      cases q with
      | atom u =>
          rw [formed'.isWrapped_atom] at wrapped
          contradiction
      | group opener' inner' closer' =>
          have inside := congrArg Span.interior same
          rw [interior_group, interior_group] at inside
          simp only [tokens, inside, List.cons_append, List.cons.injEq, List.append_cancel_left_eq,
            and_true] at same
          rw [same.1, same.2]
          exact .group opener' closer' inside
      | chain left op sign right =>
          rw [formed'.isWrapped_chain] at wrapped
          contradiction
  | chain left op sign right =>
      rw [formed.isWrapped_chain] at wrapped
      cases q with
      | atom u =>
          have long := length_tokens_chain left op sign right
          rw [same] at long
          simp [tokens] at long
      | group opener inner closer =>
          rw [formed'.isWrapped_group] at wrapped
          contradiction
      | chain left' op' sign' right' => exact .chain same

theorem le_priority_of_atom {t : Token} (wellFormed : t.WellFormed)
    (kind : t.kind = .literal ∨ t.kind = .identifier) : 4 ≤ t.priority := by
  have weighed := wellFormed.priority?_eq
  rcases kind with kind | kind
  · simp only [kind, Token.priority?, Option.some.injEq] at weighed
    rw [← weighed]
    decide
  · simp only [kind, Token.priority?, Option.some.injEq] at weighed
    rw [← weighed]
    decide

theorem priority_of_operator {t : Token} {op : Operator} (wellFormed : t.WellFormed)
    (kind : t.kind = .operator) (symbol : t.text = op.symbol) : t.priority = op.priority := by
  have weighed := wellFormed.priority?_eq
  simp only [kind, Token.priority?, symbol, Operator.ofSymbol?_symbol, Option.map_some,
    Option.some.injEq] at weighed
  exact weighed.symm

theorem priority_of_sign {sign : Token} {op : Operator} (wellFormed : sign.WellFormed)
    (member : op ∈ Operator.ofLevel level) (kind : sign.kind = .operator)
    (symbol : sign.text = op.symbol) : sign.priority = level := by
  rw [priority_of_operator wellFormed kind symbol, priority_of_mem_ofLevel member]

theorem Derives.four_le_enclosed (derives : p.Derives level) (depth index : Nat)
    (wellFormed : ∀ t ∈ p.tokens, t.WellFormed) :
    ∀ c ∈ candidates (depth + 1) index p.tokens, 4 ≤ c.weight := by
  induction derives generalizing depth index with
  | @atom t kind =>
      have priority := le_priority_of_atom (wellFormed t (by simp [tokens])) kind
      simp [tokens, candidates_plain _ _ _ (isDelimiter_of_atom kind), candidates, enclosedWeight]
      omega
  | @group opener closer inner opened closed within ih =>
      rw [(Derives.group opened closed within).formed.candidates_group]
      exact ih _ _ (forall_mem_group wellFormed)
  | tighter _ ih => exact ih depth index wellFormed
  | @chain level left right op sign member kind symbol first second ihLeft ihRight =>
      rcases forall_mem_chain wellFormed with ⟨wellFormedLeft, wellFormedSign, wellFormedRight⟩
      have priority := priority_of_sign wellFormedSign member kind symbol
      rw [(Derives.chain member kind symbol first second).formed.candidates_chain]
      intro c present
      rcases List.mem_append.mp present with early | late
      · exact ihLeft _ _ wellFormedLeft c early
      · rcases List.mem_cons.mp late with rfl | later
        · simp [priority, enclosedWeight]
          omega
        · exact ihRight _ _ wellFormedRight c later

theorem Derives.level_le_weight (derives : p.Derives level) (index : Nat)
    (wellFormed : ∀ t ∈ p.tokens, t.WellFormed) :
    ∀ c ∈ candidates 0 index p.tokens, (level : Int) ≤ c.weight := by
  induction derives generalizing index with
  | @atom t kind =>
      have priority := le_priority_of_atom (wellFormed t (by simp [tokens])) kind
      simp [tokens, candidates_plain _ _ _ (isDelimiter_of_atom kind), candidates]
      omega
  | @group opener closer inner opened closed within ih =>
      rw [(Derives.group opened closed within).formed.candidates_group]
      exact within.four_le_enclosed 0 _ (forall_mem_group wellFormed)
  | tighter _ ih =>
      intro c present
      have := ih index wellFormed c present
      omega
  | @chain level left right op sign member kind symbol first second ihLeft ihRight =>
      rcases forall_mem_chain wellFormed with ⟨wellFormedLeft, wellFormedSign, wellFormedRight⟩
      have priority := priority_of_sign wellFormedSign member kind symbol
      rw [(Derives.chain member kind symbol first second).formed.candidates_chain]
      intro c present
      rcases List.mem_append.mp present with early | late
      · exact ihLeft _ wellFormedLeft c early
      · rcases List.mem_cons.mp late with rfl | later
        · simp [priority]
        · have heavier := ihRight _ wellFormedRight c later
          omega

/-- A phrase belongs to every level that none of its candidates is lighter than. -/
theorem Derives.raise {higher : Nat} (derives : p.Derives level) (le : higher ≤ 4) (index : Nat)
    (wellFormed : ∀ t ∈ p.tokens, t.WellFormed)
    (heavy : ∀ c ∈ candidates 0 index p.tokens, (higher : Int) ≤ c.weight) : p.Derives higher := by
  cases p with
  | atom t => exact (Derives.atom derives.atom_inv).loosen le
  | group opener inner closer =>
      rcases derives.group_inv with ⟨opened, closed, within⟩
      exact (Derives.group opened closed within).loosen le
  | chain left op sign right =>
      rcases derives.chain_inv with ⟨own, _, member, kind, symbol, first, second⟩
      have priority := priority_of_sign (forall_mem_chain wellFormed).2.1 member kind symbol
      rw [derives.formed.candidates_chain] at heavy
      have := heavy _ (List.mem_append_right _ List.mem_cons_self)
      simp only [if_true, priority] at this
      exact (Derives.chain member kind symbol first second).loosen (by omega)

end Phrase

end LineCalc
