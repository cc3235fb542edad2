import LineCalc.Proofs.Expr.Grammar
import LineCalc.Proofs.Token.Layout

/-! Building and the grammar of expressions.

Of tokens as scanning makes them, with no integer beyond the digit limit, building accepts exactly
the rows that the grammar derives, and gives the tree of the derivation, of which there is only one.
A chain is split at the operator that its last step joined, since it is the rightmost of the
lightest ones. A split elsewhere leaves a side that the grammar does not derive. -/

namespace LineCalc

open LineCalc.Span

def Token.Short (t : Token) : Prop :=
  t.kind = .literal → '.' ∉ t.text.toList → t.text.length ≤ digitLimit

theorem Token.short_of_kind_ne {t : Token} (kind : t.kind ≠ .literal) : t.Short := by
  intro literal
  exact absurd literal kind

theorem Operator.symbol_injective {op other : Operator} (same : op.symbol = other.symbol) :
    op = other := by
  have found := Operator.ofSymbol?_symbol op
  rw [same, Operator.ofSymbol?_symbol] at found
  exact (Option.some.inj found).symm

namespace Phrase

variable {p q : Phrase} {level : Nat}

theorem Derives.unpaired?_eq_none (derives : p.Derives level) : unpaired? p.tokens = none := by
  have balanced := derives.formed.balance_append 0 []
  rw [List.append_nil] at balanced
  simp [unpaired?, balanced, balance]

theorem Derives.operatorRoot_chain {left right : Phrase} {op : Operator} {sign : Token}
    (derives : (Phrase.chain left op sign right).Derives level)
    (wellFormed : ∀ t ∈ (Phrase.chain left op sign right).tokens, t.WellFormed) :
    operatorRoot (Phrase.chain left op sign right).tokens =
      .ok ⟨left.tokens.length, sign, sign.priority⟩ := by
  rcases derives.chain_inv with ⟨own, _, member, kind, symbol, first, second⟩
  rcases forall_mem_chain wellFormed with ⟨wellFormedLeft, wellFormedSign, wellFormedRight⟩
  have priority := priority_of_sign wellFormedSign member kind symbol
  have leftNonempty := List.length_pos_iff.mpr left.tokens_ne_nil
  have rightNonempty := List.length_pos_iff.mpr right.tokens_ne_nil
  refine operatorRoot_eq_ok_iff.mpr ⟨derives.unpaired?_eq_none, ?_, kind, ?_, ?_⟩
  · rw [derives.formed.candidates_chain, Nat.zero_add, if_pos rfl]
    apply lightest?_append
    · intro c present
      rw [priority]
      exact first.level_le_weight 0 wellFormedLeft c present
    · intro c present
      have heavier := second.level_le_weight _ wellFormedRight c present
      change sign.priority < c.weight
      omega
  · exact Nat.ne_of_gt leftNonempty
  · simp only [tokens, List.length_append, List.length_cons]
    omega

/-- A row of tokens has at most one derivation, on whatever levels. -/
theorem Derives.eq_of_tokens_eq {other : Nat} (derives : p.Derives level)
    (derives' : q.Derives other) (wellFormed : ∀ t ∈ p.tokens, t.WellFormed)
    (same : p.tokens = q.tokens) : p = q := by
  induction p generalizing q level other with
  | atom t =>
      cases derives.formed.alike derives'.formed same
      rfl
  | group opener inner closer ih =>
      cases derives.formed.alike derives'.formed same with
      | group _ _ inside =>
          rcases derives.group_inv with ⟨_, _, within⟩
          rcases derives'.group_inv with ⟨_, _, within'⟩
          rw [ih within within' (forall_mem_group wellFormed) inside]
  | chain left op sign right ihLeft ihRight =>
      cases derives.formed.alike derives'.formed same with
      | @chain _ _ left' right' _ op' _ sign' =>
          have root := derives.operatorRoot_chain wellFormed
          rw [same, derives'.operatorRoot_chain (same ▸ wellFormed)] at root
          simp only [Except.ok.injEq, Candidate.mk.injEq] at root
          rcases root with ⟨lengths, rfl, _⟩
          rcases List.append_inj same lengths.symm with ⟨sameLeft, sameRight⟩
          rcases derives.chain_inv with ⟨_, _, _, _, symbol, first, second⟩
          rcases derives'.chain_inv with ⟨_, _, _, _, symbol', first', second'⟩
          rcases forall_mem_chain wellFormed with ⟨wellFormedLeft, _, wellFormedRight⟩
          obtain rfl := ihLeft first first' wellFormedLeft sameLeft
          obtain rfl := ihRight second second' wellFormedRight (List.cons.inj sameRight).2
          obtain rfl := Operator.symbol_injective (symbol.symm.trans symbol')
          rfl

theorem ofToken_atom {t : Token} (spelled : t.kind.Spells t.text.toList) (short : t.Short)
    (kind : t.kind = .literal ∨ t.kind = .identifier) : Expr.ofToken t = .ok (atom t).expr := by
  rcases kind with kind | kind
  · rw [kind] at spelled
    by_cases decimal : Text.IsDecimal t.text.toList
    · have point : '.' ∈ t.text.toList := by
        rcases decimal with ⟨whole, places, _, _, same⟩
        simp [same]
      simp [Expr.ofToken, kind, Text.decimal?_eq_self_iff.mpr decimal, expr, Number.ofLiteral, point]
    · have integer : Text.IsInteger t.text.toList := spelled.resolve_left decimal
      have noPoint : '.' ∉ t.text.toList := integer.point_not_mem
      have fits : ¬ digitLimit < t.text.toList.length := by
        rw [String.length_toList]
        exact Nat.not_lt.mpr (short kind noPoint)
      have noDecimal : ¬ Text.decimal? t.text.toList = some t.text.toList :=
        fun found => decimal (Text.decimal?_eq_self_iff.mp found)
      simp only [Expr.ofToken, kind, noDecimal, if_false,
        Text.run?_isDigit_eq_self_iff.mpr integer, if_true, Number.ofInteger, fits, expr,
        Number.ofLiteral, noPoint]
  · rw [kind] at spelled
    simp [Expr.ofToken, kind, Text.identifier?_eq_self_iff.mpr spelled, expr]

theorem ofToken_long {t : Token} (spelled : t.kind.Spells t.text.toList) (long : ¬ t.Short) :
    Expr.ofToken t = .error (.fault (.literalTooLong t.text.length)) := by
  simp only [Token.Short, Classical.not_imp, Nat.not_le] at long
  rcases long with ⟨kind, noPoint, beyond⟩
  rw [kind] at spelled
  have noDecimal : ¬ Text.IsDecimal t.text.toList := by
    rintro ⟨whole, places, _, _, same⟩
    exact noPoint (by simp [same])
  have integer : Text.IsInteger t.text.toList := spelled.resolve_left noDecimal
  have unfound : ¬ Text.decimal? t.text.toList = some t.text.toList :=
    fun found => noDecimal (Text.decimal?_eq_self_iff.mp found)
  rw [← String.length_toList] at beyond ⊢
  simp only [Expr.ofToken, kind, unfound, if_false, Text.run?_isDigit_eq_self_iff.mpr integer,
    if_true, Number.ofInteger, beyond]

theorem ofToken_no_atom {t : Token} (kind : ¬ (t.kind = .literal ∨ t.kind = .identifier)) :
    Expr.ofToken t = .error (.parse ⟨.invalidToken t.text, some t.position⟩) := by
  rw [not_or] at kind
  unfold Expr.ofToken
  split
  · next literal => exact absurd literal kind.1
  · next identifier => exact absurd identifier kind.2
  · rfl

theorem ofToken_misspelled {t : Token} (misspelled : ¬ t.kind.Spells t.text.toList) :
    Expr.ofToken t = .error (.parse ⟨.invalidToken t.text, some t.position⟩) := by
  cases kind : t.kind with
  | literal =>
      rw [kind] at misspelled
      have noDecimal : ¬ Text.decimal? t.text.toList = some t.text.toList :=
        fun found => misspelled (.inl (Text.decimal?_eq_self_iff.mp found))
      have noInteger : ¬ Text.run? Text.isDigit t.text.toList = some t.text.toList :=
        fun found => misspelled (.inr (Text.run?_isDigit_eq_self_iff.mp found))
      simp only [Expr.ofToken, kind, noDecimal, noInteger, if_false]
  | identifier =>
      rw [kind] at misspelled
      have noIdentifier : ¬ Text.identifier? t.text.toList = some t.text.toList :=
        fun found => misspelled (Text.identifier?_eq_self_iff.mp found)
      simp only [Expr.ofToken, kind, noIdentifier, if_false]
  | operator | delimiter => exact ofToken_no_atom (by simp [kind])

theorem ofToken_eq_ok_iff {t : Token} {e : Expr} :
    Expr.ofToken t = .ok e ↔
      (t.kind = .literal ∨ t.kind = .identifier) ∧ t.kind.Spells t.text.toList ∧ t.Short ∧
        e = (atom t).expr := by
  constructor
  · intro built
    by_cases kind : t.kind = .literal ∨ t.kind = .identifier
    · by_cases spelled : t.kind.Spells t.text.toList
      · by_cases short : t.Short
        · rw [ofToken_atom spelled short kind] at built
          exact ⟨kind, spelled, short, (Except.ok.inj built).symm⟩
        · rw [ofToken_long spelled short] at built
          contradiction
      · rw [ofToken_misspelled spelled] at built
        contradiction
    · rw [ofToken_no_atom kind] at built
      contradiction
  · rintro ⟨kind, spelled, short, rfl⟩
    exact ofToken_atom spelled short kind

section Build

variable {first : Option Int} {levels start inside : Nat} {tokens : List Token}

theorem build_of_strip_error {e : ParseError} (stripped : strip start tokens = .error e) :
    (Expr.build first (levels + 1) start tokens).result = .error (.parse e) := by
  simp only [Expr.build, stripped]

theorem build_of_strip_nil (stripped : strip start tokens = .ok ⟨inside, []⟩) :
    (Expr.build first (levels + 1) start tokens).result =
      .error (.parse ⟨.missingOperand, none⟩) := by
  simp only [Expr.build, stripped]

theorem build_of_strip_single {t : Token} (stripped : strip start tokens = .ok ⟨inside, [t]⟩) :
    (Expr.build first (levels + 1) start tokens).result = Expr.ofToken t := by
  simp only [Expr.build, stripped]

theorem build_of_root_error {span : List Token} {e : ParseError}
    (stripped : strip start tokens = .ok ⟨inside, span⟩) (long : 2 ≤ span.length)
    (root : operatorRoot span = .error e) :
    (Expr.build first (levels + 1) start tokens).result = .error (.parse e) := by
  match span with
  | [] | [_] => simp at long
  | a :: b :: rest => simp only [Expr.build, stripped, root]

theorem build_of_root {span : List Token} {c : Candidate}
    (stripped : strip start tokens = .ok ⟨inside, span⟩) (long : 2 ≤ span.length)
    (root : operatorRoot span = .ok c) :
    (Expr.build first (levels + 1) start tokens).result =
      (Expr.build first levels inside (span.take c.index)).result.bind fun a =>
        (Expr.build first levels (inside + c.index + 1) (span.drop (c.index + 1))).result.bind
          (Expr.join c.token.text a) := by
  match span with
  | [] | [_] => simp at long
  | a :: b :: rest =>
      simp only [Expr.build, stripped, root]
      cases (Expr.build first levels inside ((a :: b :: rest).take c.index)).result <;> rfl

theorem build_congr {start' : Nat} {tokens' : List Token}
    (same : strip start tokens = strip start' tokens') :
    (Expr.build first levels start tokens).result =
      (Expr.build first levels start' tokens').result := by
  cases levels with
  | zero => rfl
  | succ levels => simp only [Expr.build, same]

end Build

theorem one_le_height (e : Expr) : 1 ≤ e.height := by
  cases e <;> simp [Expr.height]

theorem height_atom (t : Token) : (atom t).expr.height = 1 := by
  unfold expr
  split <;> rfl

theorem Derives.strip_group {opener closer : Token} {inner : Phrase} (start : Nat)
    (derives : (Phrase.group opener inner closer).Derives level) :
    strip start (Phrase.group opener inner closer).tokens = strip (start + 1) inner.tokens := by
  have nonempty : Span.interior (Phrase.group opener inner closer).tokens ≠ [] := by
    rw [interior_group]
    exact inner.tokens_ne_nil
  rw [strip_of_isWrapped start derives.formed.isWrapped_group nonempty, interior_group]

theorem Derives.build_result (derives : p.Derives level)
    (wellFormed : ∀ t ∈ p.tokens, t.WellFormed) (short : ∀ t ∈ p.tokens, t.Short)
    (first : Option Int) (levels start : Nat) :
    (Expr.build first levels start p.tokens).result =
      if p.expr.height ≤ levels then .ok p.expr else .error (.parse ⟨.tooDeep, first⟩) := by
  induction p generalizing level levels start with
  | atom t =>
      cases levels with
      | zero =>
          rw [height_atom]
          rfl
      | succ levels =>
          have stripped := strip_of_not_isWrapped start derives.formed.isWrapped_atom
          rw [tokens] at stripped ⊢
          rw [build_of_strip_single stripped, ofToken_atom (wellFormed t (by simp [tokens])).spelled
            (short t (by simp [tokens])) derives.atom_inv, height_atom, if_pos (by omega)]
  | group opener inner closer ih =>
      rcases derives.group_inv with ⟨_, _, within⟩
      rw [build_congr (derives.strip_group start),
        ih within (forall_mem_group wellFormed) (forall_mem_group short)]
      rfl
  | chain left op sign right ihLeft ihRight =>
      rcases derives.chain_inv with ⟨_, _, _, _, symbol, derivesLeft, derivesRight⟩
      cases levels with
      | zero =>
          have positive := one_le_height (Phrase.chain left op sign right).expr
          rw [if_neg (by omega)]
          rfl
      | succ levels =>
          have stripped := strip_of_not_isWrapped start derives.formed.isWrapped_chain
          have long := length_tokens_chain left op sign right
          have takeLeft : (Phrase.chain left op sign right).tokens.take left.tokens.length =
              left.tokens := by simp [tokens]
          have dropLeft : (Phrase.chain left op sign right).tokens.drop (left.tokens.length + 1) =
              right.tokens := by simp [tokens]
          rcases forall_mem_chain wellFormed with ⟨wellFormedLeft, _, wellFormedRight⟩
          rcases forall_mem_chain short with ⟨shortLeft, _, shortRight⟩
          rw [build_of_root stripped (by omega) (derives.operatorRoot_chain wellFormed), takeLeft,
            dropLeft, ihLeft derivesLeft wellFormedLeft shortLeft,
            ihRight derivesRight wellFormedRight shortRight]
          have joined : Expr.join sign.text left.expr right.expr =
              .ok (Phrase.chain left op sign right).expr := by
            simp [Expr.join, symbol, expr]
          have height : (Phrase.chain left op sign right).expr.height =
              max left.expr.height right.expr.height + 1 := rfl
          rw [height]
          by_cases low : left.expr.height ≤ levels
          · by_cases lowRight : right.expr.height ≤ levels
            · rw [if_pos low, if_pos lowRight, if_pos (by omega)]
              exact joined
            · rw [if_pos low, if_neg lowRight, if_neg (by omega)]
              rfl
          · have high : ¬ max left.expr.height right.expr.height + 1 ≤ levels + 1 := by omega
            rw [if_neg low, if_neg high]
            rfl

theorem Derives.exists_of_encloses {pairs : Nat} {row : List Token} (derives : p.Derives 0)
    (encloses : Encloses p.tokens pairs row) :
    ∃ q : Phrase, q.Derives 0 ∧ q.tokens = row ∧ q.expr = p.expr := by
  induction encloses with
  | bare => exact ⟨p, derives, rfl, rfl⟩
  | @pair _ _ opener closer opened closed _ ih =>
      rcases ih with ⟨inner, within, rfl, tree⟩
      exact ⟨Phrase.group opener inner closer,
        (Derives.group opened closed within).loosen (Nat.zero_le 4), rfl, tree⟩

/-- If both sides of the root are derived, the whole is: the root is outside all groups, since
the parentheses of the left side pair, and the sides are of the levels that its operator joins. -/
theorem derives_of_operatorRoot {span : List Token} {c : Candidate}
    (wellFormed : ∀ t ∈ span, t.WellFormed) (root : operatorRoot span = .ok c)
    (derivesLeft : p.Derives 0) (left : p.tokens = span.take c.index)
    (derivesRight : q.Derives 0) (right : q.tokens = span.drop (c.index + 1)) :
    ∃ op, c.token.text = op.symbol ∧ (chain p op c.token q).Derives 0 ∧
      (chain p op c.token q).tokens = span := by
  rcases operatorRoot_eq_ok_iff.mp root with ⟨_, lightest, kind, _, _⟩
  rcases mem_candidates (mem_of_lightest? lightest) with ⟨front, behind, rfl, place⟩
  rw [Nat.zero_add] at place
  rw [place, List.take_left] at left
  have behindIs : (front ++ c.token :: behind).drop (front.length + 1) = behind := by simp
  rw [place, behindIs] at right
  subst left right
  have plain := isDelimiter_of_operator kind
  rw [derivesLeft.formed.candidates_append, candidates_plain _ _ _ plain, Nat.zero_add, if_pos rfl]
    at lightest
  obtain ⟨_, heavy, heavier⟩ := eq_of_lightest?_of_index_eq lightest place
    (fun x member => by simpa using (index_of_mem_candidates member).2)
    (fun y member => (index_of_mem_candidates member).1)
  have wellFormedSign : c.token.WellFormed := wellFormed c.token (by simp)
  obtain ⟨op, spelled⟩ : TokenKind.operator.Spells c.token.text.toList :=
    kind ▸ wellFormedSign.spelled
  have symbol : c.token.text = op.symbol := String.toList_inj.mp spelled
  rcases exists_mem_ofLevel op with ⟨own, le, member⟩
  have priority := priority_of_sign wellFormedSign member kind symbol
  have first : p.Derives own := by
    apply derivesLeft.raise (by omega) 0 fun t present => wellFormed t (by simp [present])
    intro x present
    rw [← priority]
    exact heavy x present
  have second : q.Derives (own + 1) := by
    apply derivesRight.raise (by omega) _ fun t present => wellFormed t (by simp [present])
    intro y present
    have lighter : c.token.priority < y.weight := heavier y present
    rw [priority] at lighter
    omega
  exact ⟨op, symbol, (Derives.chain member kind symbol first second).loosen (Nat.zero_le own), rfl⟩

/-- What building a row comes to: the tree of a derivation, a refusal, or a fault over an integer
that has too many digits. -/
inductive Built (tokens : List Token) : Except BuildError Expr → Prop
  | tree {p : Phrase} (derives : p.Derives 0) (spans : p.tokens = tokens)
      (short : ∀ t ∈ tokens, t.Short) : Built tokens (.ok p.expr)
  | refused (e : ParseError) : Built tokens (.error (.parse e))
  | tooLong {t : Token} (member : t ∈ tokens) (long : ¬ t.Short) :
      Built tokens (.error (.fault (.literalTooLong t.text.length)))

theorem Built.of_encloses {pairs : Nat} {tokens span : List Token}
    {result : Except BuildError Expr} (built : Built span result)
    (encloses : Encloses span pairs tokens) : Built tokens result := by
  cases built with
  | tree derives spans short =>
      subst spans
      rcases derives.exists_of_encloses encloses with ⟨q, derives, same, tree⟩
      rw [← tree]
      refine .tree derives same ?_
      intro t member
      rcases encloses.mem_or_isDelimiter member with within | delimiter
      · exact short t within
      · exact Token.short_of_kind_ne (by simp [of_decide_eq_true delimiter])
  | refused e => exact .refused e
  | tooLong member long => exact .tooLong (encloses.mem member) long

theorem Built.of_sides {span : List Token} {c : Candidate} {left right : Except BuildError Expr}
    (wellFormed : ∀ t ∈ span, t.WellFormed) (root : operatorRoot span = .ok c)
    (builtLeft : Built (span.take c.index) left)
    (builtRight : Built (span.drop (c.index + 1)) right) :
    Built span (left.bind fun a => right.bind (Expr.join c.token.text a)) := by
  cases builtLeft with
  | refused e => exact .refused e
  | tooLong member long => exact .tooLong (List.mem_of_mem_take member) long
  | @tree p derivesLeft spansLeft shortLeft =>
      cases builtRight with
      | refused e => exact .refused e
      | tooLong member long => exact .tooLong (List.mem_of_mem_drop member) long
      | @tree q derivesRight spansRight shortRight =>
          obtain ⟨op, symbol, derives, spans⟩ := derives_of_operatorRoot wellFormed root derivesLeft
            spansLeft derivesRight spansRight
          have joined : Expr.join c.token.text p.expr q.expr = .ok (chain p op c.token q).expr := by
            simp [Expr.join, symbol, expr]
          simp only [Except.bind, joined]
          refine .tree derives spans ?_
          rcases operatorRoot_eq_ok_iff.mp root with ⟨_, _, kind, _, _⟩
          rw [← spans]
          intro t member
          simp only [tokens, List.mem_append, List.mem_cons] at member
          rcases member with early | rfl | late
          · exact shortLeft t (spansLeft ▸ early)
          · exact Token.short_of_kind_ne (by simp [kind])
          · exact shortRight t (spansRight ▸ late)

theorem built_ofToken {t : Token} (wellFormed : t.WellFormed) : Built [t] (Expr.ofToken t) := by
  by_cases short : t.Short
  · by_cases kind : t.kind = .literal ∨ t.kind = .identifier
    · rw [ofToken_atom wellFormed.spelled short kind]
      exact .tree ((Derives.atom kind).loosen (Nat.zero_le 4)) rfl (by simpa using short)
    · rw [ofToken_no_atom kind]
      exact .refused _
  · rw [ofToken_long wellFormed.spelled short]
    exact .tooLong List.mem_cons_self short

theorem built_build (first : Option Int) (levels start : Nat) {tokens : List Token}
    (wellFormed : ∀ t ∈ tokens, t.WellFormed) :
    Built tokens (Expr.build first levels start tokens).result := by
  induction levels generalizing start tokens with
  | zero => exact .refused _
  | succ levels ih =>
      cases stripped : strip start tokens with
      | error e =>
          rw [build_of_strip_error stripped]
          exact .refused e
      | ok stripping =>
          rcases stripping with ⟨inside, span⟩
          rcases encloses_of_strip stripped with ⟨pairs, encloses⟩
          have wellFormedSpan : ∀ t ∈ span, t.WellFormed :=
            fun t member => wellFormed t (encloses.mem member)
          refine Built.of_encloses ?_ encloses
          match span with
          | [] =>
              rw [build_of_strip_nil stripped]
              exact .refused _
          | [t] =>
              rw [build_of_strip_single stripped]
              exact built_ofToken (wellFormedSpan t List.mem_cons_self)
          | a :: b :: rest =>
              have long : 2 ≤ (a :: b :: rest).length := by simp
              cases root : operatorRoot (a :: b :: rest) with
              | error e =>
                  rw [build_of_root_error stripped long root]
                  exact .refused e
              | ok c =>
                  rw [build_of_root stripped long root]
                  apply Built.of_sides wellFormedSpan root
                  · exact ih _ fun t member => wellFormedSpan t (List.mem_of_mem_take member)
                  · exact ih _ fun t member => wellFormedSpan t (List.mem_of_mem_drop member)

/-- What is built is the tree of a derivation, and all else is refused. -/
theorem build_sound (first : Option Int) (levels start : Nat) {tokens : List Token}
    (wellFormed : ∀ t ∈ tokens, t.WellFormed) (short : ∀ t ∈ tokens, t.Short) :
    (∃ p : Phrase, p.Derives 0 ∧ p.tokens = tokens ∧
        (Expr.build first levels start tokens).result = .ok p.expr) ∨
      ∃ e, (Expr.build first levels start tokens).result = .error (.parse e) := by
  have built := built_build first levels start wellFormed
  generalize (Expr.build first levels start tokens).result = result at built
  cases built with
  | tree derives spans _ => exact .inl ⟨_, derives, spans, rfl⟩
  | refused e => exact .inr ⟨e, rfl⟩
  | tooLong member long => exact absurd (short _ member) long

/-- Building gives a tree exactly if the grammar derives the tokens and there is room for the levels of
the tree: then it is the tree of the derivation, of which there is no other. A derived row whose tree
has too many levels is refused as too deep, and a row that is not derived is refused as well. -/
theorem ofTokens_iff_derives (stack : Stack) (tokens : List Token)
    (wellFormed : ∀ t ∈ tokens, t.WellFormed) (short : ∀ t ∈ tokens, t.Short) :
    (∀ e, (Expr.ofTokens stack tokens).result = .ok e ↔
      ∃ p : Phrase, p.Derives 0 ∧ p.tokens = tokens ∧ p.expr = e ∧ e.height ≤ stack.spanRoom) ∧
    (∀ p q : Phrase, p.Derives 0 → p.tokens = tokens → q.Derives 0 → q.tokens = tokens → p = q) ∧
    (∀ p : Phrase, p.Derives 0 → p.tokens = tokens → stack.spanRoom < p.expr.height →
      (Expr.ofTokens stack tokens).result =
        .error (.parse ⟨.tooDeep, tokens.head?.map Token.position⟩)) ∧
    ((¬ ∃ p : Phrase, p.Derives 0 ∧ p.tokens = tokens) →
      ∃ e, (Expr.ofTokens stack tokens).result = .error (.parse e)) := by
  refine ⟨?_, ?_, ?_, ?_⟩
  · intro e
    constructor
    · intro built
      rcases build_sound (tokens.head?.map Token.position) stack.spanRoom 0 wellFormed short with
        ⟨p, derives, rfl, result⟩ | ⟨error, refused⟩
      · have tree : p.expr = e := Except.ok.inj (result.symm.trans built)
        refine ⟨p, derives, rfl, tree, ?_⟩
        by_contra high
        rw [derives.build_result wellFormed short, tree, if_neg high] at result
        contradiction
      · cases refused.symm.trans built
    · rintro ⟨p, derives, rfl, rfl, low⟩
      have result := derives.build_result wellFormed short
        (p.tokens.head?.map Token.position) stack.spanRoom 0
      rw [if_pos low] at result
      exact result
  · intro p q derives same derives' same'
    exact derives.eq_of_tokens_eq derives' (same ▸ wellFormed) (same.trans same'.symm)
  · rintro p derives rfl high
    have result := derives.build_result wellFormed short
      (p.tokens.head?.map Token.position) stack.spanRoom 0
    rw [if_neg (Nat.not_le.mpr high)] at result
    exact result
  · intro underived
    rcases build_sound (tokens.head?.map Token.position) stack.spanRoom 0 wellFormed short with
      ⟨p, derives, same, _⟩ | refused
    · exact absurd ⟨p, derives, same⟩ underived
    · exact refused

/-- The tokens of `8-(x-1)` are built into the tree that the parentheses ask for. -/
theorem ofTokens_difference :
    ∃ tokens, Token.scan "8-(x-1)" = .ok tokens ∧ (∀ t ∈ tokens, t.Short) ∧
      (Expr.ofTokens .empty tokens).result =
        .ok (.binary .sub (.literal (.number (.int 8)))
          (.binary .sub (.var "x" .blank) (.literal (.number (.int 1))))) := by
  let tokens : List Token := [⟨"8", .literal, 1000, 0⟩, ⟨"-", .operator, 1, 1⟩,
    ⟨"(", .delimiter, -1, 2⟩, ⟨"x", .identifier, 999, 3⟩, ⟨"-", .operator, 1, 4⟩,
    ⟨"1", .literal, 1000, 5⟩, ⟨")", .delimiter, -1, 6⟩]
  have scanned : Token.scan "8-(x-1)" = .ok tokens := by decide +kernel
  have short : ∀ t ∈ tokens, t.Short := by
    simp [tokens, Token.Short, digitLimit]
    decide
  refine ⟨tokens, scanned, short, ?_⟩
  have inner : (chain (atom ⟨"x", .identifier, 999, 3⟩) .sub ⟨"-", .operator, 1, 4⟩
      (atom ⟨"1", .literal, 1000, 5⟩)).Derives 1 :=
    .chain (by decide) rfl rfl ((Derives.atom (.inr rfl)).loosen (by decide))
      ((Derives.atom (.inl rfl)).loosen (by decide))
  have whole : (chain (atom ⟨"8", .literal, 1000, 0⟩) .sub ⟨"-", .operator, 1, 1⟩
      (group ⟨"(", .delimiter, -1, 2⟩ (chain (atom ⟨"x", .identifier, 999, 3⟩) .sub
        ⟨"-", .operator, 1, 4⟩ (atom ⟨"1", .literal, 1000, 5⟩))
        ⟨")", .delimiter, -1, 6⟩)).Derives 1 :=
    .chain (by decide) rfl rfl ((Derives.atom (.inl rfl)).loosen (by decide))
      ((Derives.group (by decide) (by decide) (inner.loosen (by decide))).loosen (by decide))
  exact ((ofTokens_iff_derives .empty tokens (Token.wellFormed_of_scan scanned) short).1 _).mpr
    ⟨_, whole.loosen (by decide), rfl, by decide +kernel, by decide⟩

end Phrase

end LineCalc
