import LineCalc.Proofs.Expr.Shape
import LineCalc.Proofs.Line.Reading

/-! Writing an expression, and reading it back.

A formula is an expression with its literals as they are written. It is written in order, with any
number of pairs of parentheses around each of its parts. A part is in need of parentheses if its
operator binds less tightly than the one that it is a side of, or, on the right, no more tightly.
What is written reads back as the expression exactly if no part in need is left without parentheses. -/

namespace LineCalc

inductive Formula
  | literal (text : String) (spelled : TokenKind.literal.Spells text.toList)
  | identifier (name : String) (spelled : TokenKind.identifier.Spells name.toList)
  | binary (op : Operator) (left right : Formula)

namespace Formula

def expr : Formula → Expr
  | literal text _ => .literal (.number (.ofLiteral text.toList))
  | identifier name _ => .var name .blank
  | binary op left right => .binary op left.expr right.expr

def Short : Formula → Prop
  | literal text _ => '.' ∉ text.toList → text.length ≤ digitLimit
  | identifier _ _ => True
  | binary _ left right => left.Short ∧ right.Short

def operator? : Formula → Option Operator
  | binary op _ _ => some op
  | _ => none

def inNeed : Formula → List Side → Bool
  | binary op left _, .left :: place =>
    place.isEmpty && left.operator?.any (·.priority < op.priority) || left.inNeed place
  | binary op _ right, .right :: place =>
    place.isEmpty && right.operator?.any (·.priority ≤ op.priority) || right.inNeed place
  | _, _ => false

def enclose (count : Nat) (words : List String) : List String :=
  List.replicate count "(" ++ words ++ List.replicate count ")"

/-- The words of a formula, with `pairs place` pairs of parentheses around the part at a place. -/
def words (pairs : List Side → Nat) : Formula → List String
  | literal text _ => enclose (pairs []) [text]
  | identifier name _ => enclose (pairs []) [name]
  | binary op left right =>
    enclose (pairs []) (left.words (fun place => pairs (.left :: place)) ++
      op.symbol :: right.words fun place => pairs (.right :: place))

def text (pairs : List Side → Nat) (f : Formula) : String := " ".intercalate (f.words pairs)

end Formula

namespace Operator

def level (op : Operator) : Nat := op.priority.toNat

theorem priority_eq_level (op : Operator) : op.priority = op.level := by
  cases op <;> rfl

theorem mem_ofLevel_level (op : Operator) : op ∈ ofLevel op.level := by
  cases op <;> decide

theorem priority_lt_iff {inner op : Operator} :
    inner.priority < op.priority ↔ inner.level < op.level := by
  rw [priority_eq_level, priority_eq_level, Int.ofNat_lt]

theorem priority_le_iff {inner op : Operator} :
    inner.priority ≤ op.priority ↔ inner.level < op.level + 1 := by
  rw [priority_eq_level, priority_eq_level, Int.ofNat_le, Nat.lt_succ_iff]

theorem level_le_three (op : Operator) : op.level ≤ 3 := by
  cases op <;> decide

end Operator

def Expr.nodes : Expr → Nat
  | binary _ left right => left.nodes + 1 + right.nodes
  | _ => 1

namespace Phrase

open Token (opener closer sign)

variable {p q : Phrase} {level : Nat}

theorem derives_atom_iff {t : Token} (kind : t.kind = .literal ∨ t.kind = .identifier) :
    (atom t).Derives level ↔ level ≤ 4 :=
  ⟨fun derives => derives.level_le, fun le => (Derives.atom kind).loosen le⟩

theorem derives_chain_iff {left right : Phrase} {op : Operator} {offset : Nat} :
    (chain left op (sign op offset) right).Derives level ↔
      level ≤ op.level ∧ left.Derives op.level ∧ right.Derives (op.level + 1) := by
  constructor
  · intro derives
    rcases derives.chain_inv with ⟨own, le, member, _, _, first, second⟩
    have same : own = op.level := by
      have weighed := priority_of_mem_ofLevel member
      rw [op.priority_eq_level] at weighed
      omega
    subst same
    exact ⟨le, first, second⟩
  · rintro ⟨le, first, second⟩
    exact (Derives.chain op.mem_ofLevel_level rfl rfl first second).loosen le

def enclosed : Nat → Phrase → Phrase
  | 0, p => p
  | count + 1, p => group (opener 0) (enclosed count p) (closer 0)

theorem tokens_enclosed (count : Nat) (p : Phrase) :
    (enclosed count p).tokens =
      List.replicate count (opener 0) ++ p.tokens ++ List.replicate count (closer 0) := by
  induction count with
  | zero => simp [enclosed]
  | succ count ih =>
      have last : List.replicate (count + 1) (closer 0) =
          List.replicate count (closer 0) ++ [closer 0] := List.replicate_succ'
      rw [enclosed, tokens, ih, last, List.replicate_succ]
      simp

theorem map_text_tokens_enclosed (count : Nat) (p : Phrase) :
    (enclosed count p).tokens.map Token.text = Formula.enclose count (p.tokens.map Token.text) := by
  simp [tokens_enclosed, Formula.enclose, opener, closer]

theorem forall_mem_enclosed {P : Token → Prop} {count : Nat} (opens : P (opener 0))
    (closes : P (closer 0)) :
    (∀ t ∈ (enclosed count p).tokens, P t) ↔ ∀ t ∈ p.tokens, P t := by
  rw [tokens_enclosed]
  constructor
  · intro all t member
    exact all t (by simp [member])
  · intro all t member
    simp only [List.mem_append, List.mem_replicate] at member
    rcases member with (⟨_, rfl⟩ | member) | ⟨_, rfl⟩
    · exact opens
    · exact all t member
    · exact closes

theorem expr_enclosed (count : Nat) (p : Phrase) : (enclosed count p).expr = p.expr := by
  induction count with
  | zero => rfl
  | succ count ih => exact ih

theorem Formed.enclosed (formed : p.Formed) (count : Nat) : (enclosed count p).Formed := by
  induction count with
  | zero => exact formed
  | succ count ih => exact ⟨rfl, rfl, ih⟩

theorem derives_enclosed_iff {own : Nat} {condition : Prop}
    (inner : ∀ level, p.Derives level ↔ level ≤ own ∧ condition) (count level : Nat) :
    (enclosed count p).Derives level ↔ level ≤ (if count = 0 then own else 4) ∧ condition := by
  induction count generalizing level with
  | zero => exact inner level
  | succ count ih =>
      constructor
      · intro derives
        exact ⟨derives.level_le, ((ih 0).mp derives.group_inv.2.2).2⟩
      · rintro ⟨le, holds⟩
        exact (Derives.group rfl rfl ((ih 0).mpr ⟨Nat.zero_le _, holds⟩)).loosen le

theorem Formed.countP_tokens (formed : p.Formed) :
    p.tokens.countP (fun t => !t.isDelimiter) = p.expr.nodes := by
  induction p with
  | atom t =>
      have plain := isDelimiter_of_atom formed
      simp only [tokens, expr]
      split <;> simp [plain, Expr.nodes]
  | group opener inner closer ih =>
      rcases formed with ⟨opened, closed, within⟩
      simp [tokens, expr, Token.isDelimiter_of_isOpen opened, Token.isDelimiter_of_isClose closed,
        ih within]
  | chain left op sign right ihLeft ihRight =>
      rcases formed with ⟨kind, _, first, second⟩
      have plain := isDelimiter_of_operator kind
      simp only [tokens, expr, Expr.nodes, List.countP_append, List.countP_cons, plain,
        ihLeft first, ihRight second]
      simp
      omega

theorem eq_of_countP_eq {front behind front' behind' : List Token} {t t' : Token}
    (same : front ++ t :: behind = front' ++ t' :: behind') (plain : t.isDelimiter = false)
    (plain' : t'.isDelimiter = false)
    (count : front.countP (fun t => !t.isDelimiter) = front'.countP fun t => !t.isDelimiter) :
    front = front' ∧ t = t' ∧ behind = behind' := by
  rcases List.append_eq_append_iff.mp same with ⟨more, rfl, tail⟩ | ⟨more, rfl, tail⟩
  · cases more with
    | nil => simpa using tail
    | cons u more =>
        rcases List.cons.inj tail with ⟨rfl, _⟩
        simp [plain] at count
  · cases more with
    | nil => simpa [eq_comm] using tail
    | cons u more =>
        rcases List.cons.inj tail with ⟨rfl, _⟩
        simp [plain'] at count

/-- The tokens of a phrase and its tree leave no choice where the parentheses belong. -/
theorem Formed.eq_of_expr_eq (formed : p.Formed) (formed' : q.Formed) (same : p.tokens = q.tokens)
    (tree : p.expr = q.expr) : p = q := by
  induction p generalizing q with
  | atom t =>
      cases formed.alike formed' same
      rfl
  | group opener inner closer ih =>
      cases formed.alike formed' same with
      | group _ _ inside => rw [ih formed.2.2 formed'.2.2 inside tree]
  | chain left op sign right ihLeft ihRight =>
      cases formed.alike formed' same with
      | @chain _ _ left' right' _ op' _ sign' =>
          rcases formed with ⟨kind, _, first, second⟩
          rcases formed' with ⟨kind', _, first', second'⟩
          simp only [expr, Expr.binary.injEq] at tree
          rcases tree with ⟨rfl, treeLeft, treeRight⟩
          have count : left.tokens.countP (fun t => !t.isDelimiter) =
              left'.tokens.countP fun t => !t.isDelimiter := by
            rw [first.countP_tokens, first'.countP_tokens, treeLeft]
          rcases eq_of_countP_eq same (isDelimiter_of_operator kind) (isDelimiter_of_operator kind')
            count with ⟨sameLeft, rfl, sameRight⟩
          rw [ihLeft first first' sameLeft treeLeft, ihRight second second' sameRight treeRight]

end Phrase

namespace Formula

open Token (sign)

variable {pairs : List Side → Nat}

def phrase (pairs : List Side → Nat) : Formula → Phrase
  | literal text _ => .enclosed (pairs []) (.atom ⟨text, .literal, Token.literalPriority, 0⟩)
  | identifier name _ =>
    .enclosed (pairs []) (.atom ⟨name, .identifier, Token.identifierPriority, 0⟩)
  | binary op left right =>
    .enclosed (pairs []) (.chain (left.phrase fun place => pairs (.left :: place)) op (sign op 0)
      (right.phrase fun place => pairs (.right :: place)))

theorem map_text_tokens_phrase (f : Formula) (pairs : List Side → Nat) :
    (f.phrase pairs).tokens.map Token.text = f.words pairs := by
  induction f generalizing pairs with
  | literal text spelled =>
      rw [phrase, Phrase.map_text_tokens_enclosed]
      rfl
  | identifier name spelled =>
      rw [phrase, Phrase.map_text_tokens_enclosed]
      rfl
  | binary op left right ihLeft ihRight =>
      rw [phrase, Phrase.map_text_tokens_enclosed, Phrase.tokens, List.map_append, List.map_cons,
        ihLeft, ihRight]
      rfl

theorem expr_phrase (f : Formula) (pairs : List Side → Nat) : (f.phrase pairs).expr = f.expr := by
  induction f generalizing pairs with
  | literal text spelled => simp [phrase, Phrase.expr_enclosed, Phrase.expr, expr]
  | identifier name spelled => simp [phrase, Phrase.expr_enclosed, Phrase.expr, expr]
  | binary op left right ihLeft ihRight =>
      simp [phrase, Phrase.expr_enclosed, Phrase.expr, expr, ihLeft, ihRight]

theorem formed_phrase (f : Formula) (pairs : List Side → Nat) : (f.phrase pairs).Formed := by
  induction f generalizing pairs with
  | literal text spelled =>
      apply Phrase.Formed.enclosed
      exact Or.inl rfl
  | identifier name spelled =>
      apply Phrase.Formed.enclosed
      exact Or.inr rfl
  | binary op left right ihLeft ihRight =>
      apply Phrase.Formed.enclosed
      exact And.intro rfl ⟨rfl, ihLeft _, ihRight _⟩

theorem wellFormed_phrase (f : Formula) (pairs : List Side → Nat) :
    ∀ t ∈ (f.phrase pairs).tokens, t.WellFormed := by
  induction f generalizing pairs with
  | literal text spelled =>
      apply (Phrase.forall_mem_enclosed (Token.opener_wellFormed 0) (Token.closer_wellFormed 0)).mpr
      exact List.forall_mem_singleton.mpr ⟨spelled, rfl⟩
  | identifier name spelled =>
      apply (Phrase.forall_mem_enclosed (Token.opener_wellFormed 0) (Token.closer_wellFormed 0)).mpr
      exact List.forall_mem_singleton.mpr ⟨spelled, rfl⟩
  | binary op left right ihLeft ihRight =>
      apply (Phrase.forall_mem_enclosed (Token.opener_wellFormed 0) (Token.closer_wellFormed 0)).mpr
      exact List.forall_mem_append.mpr
        ⟨ihLeft _, List.forall_mem_cons.mpr ⟨Token.sign_wellFormed op 0, ihRight _⟩⟩

theorem short_phrase_iff {f : Formula} :
    (∀ t ∈ (f.phrase pairs).tokens, t.Short) ↔ f.Short := by
  have opens : (Token.opener 0).Short := Token.short_of_kind_ne (by simp [Token.opener])
  have closes : (Token.closer 0).Short := Token.short_of_kind_ne (by simp [Token.closer])
  induction f generalizing pairs with
  | literal text spelled =>
      rw [phrase, Phrase.forall_mem_enclosed opens closes]
      simp [Phrase.tokens, Token.Short, Short]
  | identifier name spelled =>
      rw [phrase, Phrase.forall_mem_enclosed opens closes]
      simp [Phrase.tokens, Token.Short, Short]
  | binary op left right ihLeft ihRight =>
      have joins : (sign op 0).Short := Token.short_of_kind_ne (by simp [sign])
      rw [phrase, Phrase.forall_mem_enclosed opens closes, Phrase.tokens, List.forall_mem_append,
        List.forall_mem_cons]
      exact and_congr ihLeft ((and_iff_right joins).trans ihRight)

def level (pairs : List Side → Nat) (f : Formula) : Nat :=
  if pairs [] = 0 then (f.operator?.map Operator.level).getD 4 else 4

theorem le_level_iff (f : Formula) {level : Nat} (le : level ≤ 4) :
    level ≤ f.level pairs ↔ (f.operator?.any (·.level < level) = true → pairs [] ≠ 0) := by
  by_cases bare : pairs [] = 0
  · cases found : f.operator? <;> simp [Formula.level, bare, found, le]
  · simp [Formula.level, bare, le]

/-- No part in need is left without parentheses. -/
def Covered (pairs : List Side → Nat) (f : Formula) : Prop :=
  ∀ place, f.inNeed place = true → pairs place ≠ 0

theorem covered_binary_iff {op : Operator} {left right : Formula} :
    (binary op left right).Covered pairs ↔
      (op.level ≤ left.level (fun place => pairs (.left :: place)) ∧
        left.Covered fun place => pairs (.left :: place)) ∧
      op.level + 1 ≤ right.level (fun place => pairs (.right :: place)) ∧
        right.Covered fun place => pairs (.right :: place) := by
  have bound := op.level_le_three
  rw [le_level_iff left (by omega), le_level_iff right (by omega)]
  constructor
  · intro covered
    refine ⟨⟨?_, ?_⟩, ?_, ?_⟩
    · intro looser
      exact covered [.left] (by
        simp only [inNeed, Operator.priority_lt_iff, looser, List.isEmpty_nil, Bool.and_true,
          Bool.true_or])
    · intro place need
      exact covered (.left :: place) (by simp [inNeed, need])
    · intro looser
      exact covered [.right] (by
        simp only [inNeed, Operator.priority_le_iff, looser, List.isEmpty_nil, Bool.and_true,
          Bool.true_or])
    · intro place need
      exact covered (.right :: place) (by simp [inNeed, need])
  · rintro ⟨⟨needLeft, coveredLeft⟩, needRight, coveredRight⟩ place need
    match place with
    | [] => simp [inNeed] at need
    | .left :: place =>
        simp only [inNeed, Operator.priority_lt_iff, Bool.or_eq_true, Bool.and_eq_true,
          List.isEmpty_iff] at need
        rcases need with ⟨rfl, looser⟩ | need
        · exact needLeft looser
        · exact coveredLeft place need
    | .right :: place =>
        simp only [inNeed, Operator.priority_le_iff, Bool.or_eq_true, Bool.and_eq_true,
          List.isEmpty_iff] at need
        rcases need with ⟨rfl, looser⟩ | need
        · exact needRight looser
        · exact coveredRight place need

/-- What is written is derived exactly if no part in need is left without parentheses. -/
theorem derives_phrase_iff (f : Formula) (pairs : List Side → Nat) (level : Nat) :
    (f.phrase pairs).Derives level ↔ level ≤ f.level pairs ∧ f.Covered pairs := by
  induction f generalizing pairs level with
  | literal text spelled =>
      refine Phrase.derives_enclosed_iff (fun level => ?_) _ _
      exact Iff.trans (Phrase.derives_atom_iff (.inl rfl)) (by simp [Covered, inNeed, operator?])
  | identifier name spelled =>
      refine Phrase.derives_enclosed_iff (fun level => ?_) _ _
      exact Iff.trans (Phrase.derives_atom_iff (.inr rfl)) (by simp [Covered, inNeed, operator?])
  | binary op left right ihLeft ihRight =>
      refine Phrase.derives_enclosed_iff (fun level => ?_) _ _
      rw [Phrase.derives_chain_iff, ihLeft, ihRight, covered_binary_iff]
      rfl

/-- What is written of a formula reads back as its expression exactly if its integers are short
enough, the expression is not too high, and no part in need of parentheses is left without any. -/
theorem reads_text_iff (stack : Stack) (f : Formula) (pairs : List Side → Nat) :
    Line.Reads stack (f.text pairs) f.expr ↔ f.Short ∧ f.expr.height ≤ stack.spanRoom ∧
      ∀ place, f.inNeed place = true → pairs place ≠ 0 := by
  constructor
  · intro reads
    rcases Token.exists_scan_words (f.wellFormed_phrase pairs) with ⟨row, scanned, words⟩
    rw [map_text_tokens_phrase] at scanned
    rcases Line.reads_iff.mp reads with ⟨p, spells, tree, low⟩
    obtain rfl : row = p.tokens := Except.ok.inj (scanned.symm.trans spells.scanned)
    -- The phrase that was read, moved to where the written one stands, is that phrase.
    rcases p.exists_of_words_eq words.symm with ⟨q, same, treeMoved, derived⟩
    have derives := derived 0 spells.derives
    have read : f.phrase pairs = q := by
      apply (f.formed_phrase pairs).eq_of_expr_eq derives.formed same.symm
      rw [expr_phrase, treeMoved, tree]
    rw [← read, derives_phrase_iff] at derives
    refine ⟨?_, low, derives.2⟩
    exact short_phrase_iff.mp (Token.forall_short_of_words_eq words spells.short)
  · rintro ⟨short, low, covered⟩
    have derives := (derives_phrase_iff f pairs 0).mpr ⟨Nat.zero_le _, covered⟩
    obtain ⟨q, spells, tree⟩ := Line.exists_spells derives (f.wellFormed_phrase pairs)
      (short_phrase_iff.mpr short)
    rw [map_text_tokens_phrase] at spells
    rw [expr_phrase] at tree
    exact Line.reads_iff.mpr ⟨q, spells, tree, low⟩

/-- The difference on the right of `8 - ( x - 1 )` is in need of its parentheses. -/
theorem reads_text_difference :
    ∃ e : Expr, e = .binary .sub (.literal (.number (.int 8)))
        (.binary .sub (.var "x" .blank) (.literal (.number (.int 1)))) ∧
      Line.Reads .empty "8 - ( x - 1 )" e ∧ ¬ Line.Reads .empty "8 - x - 1" e := by
  let f : Formula := binary .sub
    (literal "8" (.inr ⟨by decide, by simpa using show Text.isDigit '8' = true by decide⟩))
    (binary .sub (identifier "x" ⟨'x', [], by simp, by decide, by simp⟩)
      (literal "1" (.inr ⟨by decide, by simpa using show Text.isDigit '1' = true by decide⟩)))
  let pairs : List Side → Nat := fun place => if place = [.right] then 1 else 0
  have written : f.text pairs = "8 - ( x - 1 )" := by decide +kernel
  have bare : f.text (fun _ => 0) = "8 - x - 1" := by decide +kernel
  refine ⟨f.expr, by decide +kernel, ?_, ?_⟩
  · rw [← written, reads_text_iff]
    refine ⟨?_, by decide, ?_⟩
    · simp only [f, Short]
      decide
    · intro place need
      obtain rfl : place = [.right] := by
        rcases place with _ | ⟨_ | _, _ | ⟨_ | _, _⟩⟩ <;> simp [f, inNeed, operator?] at need ⊢
      decide
  · rw [← bare, reads_text_iff]
    rintro ⟨_, _, covered⟩
    exact covered [.right] (by decide) rfl

end Formula

end LineCalc
