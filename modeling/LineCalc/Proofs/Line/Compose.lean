import LineCalc.Proofs.Expr.Kinds
import LineCalc.Proofs.Line.Reading
import LineCalc.Proofs.Token.Compose

namespace LineCalc

open Token (Laid opener closer sign movedFrom)

theorem Phrase.Derives.join {left right : Phrase} (first : left.Derives 4)
    (second : right.Derives 4) (op : Operator) (offset : Nat) :
    (Phrase.chain left op (sign op offset) right).Derives 0 := by
  rcases Phrase.exists_mem_ofLevel op with ⟨own, le, member⟩
  have joined : (Phrase.chain left op (sign op offset) right).Derives own :=
    .chain member rfl rfl (first.loosen (by omega)) (second.loosen (by omega))
  exact joined.loosen (Nat.zero_le own)

theorem Phrase.forall_short_join {left right : Phrase} (first : ∀ t ∈ left.tokens, t.Short)
    (second : ∀ t ∈ right.tokens, t.Short) (op : Operator) (offset : Nat) :
    ∀ t ∈ (Phrase.chain left op (sign op offset) right).tokens, t.Short := by
  intro t member
  simp only [Phrase.tokens, List.mem_append, List.mem_cons] at member
  rcases member with early | rfl | late
  · exact first t early
  · exact Token.short_of_kind_ne (by simp [sign])
  · exact second t late

namespace Line

variable {stack : Stack} {line first second : String} {p q : Phrase} {a b : Expr}

theorem Spells.exists_group (spells : Spells line p) (offset : Nat) :
    ∃ g : Phrase, g.Derives 4 ∧ g.expr = p.expr ∧ (∀ t ∈ g.tokens, t.Short) ∧
      g.tokens.head?.map Token.position = some offset ∧
      ∀ (before : Option Token) (rest : List Char) (more : List Token),
        Laid (offset + line.length + 2) (some (closer (offset + line.length + 1))) rest more →
        Laid offset before ('(' :: (line.toList ++ ')' :: rest)) (g.tokens ++ more) := by
  have words : (p.tokens.map (movedFrom 0 (offset + 1))).map Token.word =
      p.tokens.map Token.word := by
    simp [Token.word, Function.comp_def]
  rcases p.exists_of_words_eq words with ⟨inner, within, tree, derived⟩
  refine ⟨.group (opener offset) inner (closer (offset + line.length + 1)),
    .group rfl rfl (derived 0 spells.derives), tree, ?_, rfl, ?_⟩
  · have inside := Token.forall_short_of_words_eq words.symm spells.short
    rw [← within] at inside
    intro t member
    simp only [Phrase.tokens, List.cons_append, List.mem_cons, List.mem_append, List.not_mem_nil,
      or_false] at member
    rcases member with rfl | member | rfl
    · exact Token.short_of_kind_ne (by simp [opener])
    · exact inside t member
    · exact Token.short_of_kind_ne (by simp [closer])
  · intro before rest more behind
    rw [← String.length_toList] at behind ⊢
    have laid := (Token.scan_eq_ok_iff.mp spells.scanned).enclose offset before behind
    simpa [Phrase.tokens, within] using laid

theorem Spells.exists_operand (spells : Spells second q) (op : Operator) (offset : Nat) :
    ∃ g : Phrase, g.Derives 4 ∧ g.expr = q.expr ∧ (∀ t ∈ g.tokens, t.Short) ∧
      ∀ before : Option Token, (∀ t ∈ before, ¬ t.Clash (sign op offset)) →
        Laid offset before (op.symbol.toList ++ '(' :: (second.toList ++ [')']))
          (sign op offset :: g.tokens) := by
  rcases spells.exists_group (offset + op.symbol.toList.length) with
    ⟨g, derives, tree, short, _, placed⟩
  refine ⟨g, derives, tree, short, ?_⟩
  intro before apart
  have group := placed (some (sign op offset)) [] [] (.last (by simp [Text.IsGap]))
  rw [List.append_nil] at group
  have laid : Laid offset before ([] ++ (sign op offset).text.toList ++
      '(' :: (second.toList ++ [')'])) (sign op offset :: g.tokens) :=
    .token (by simp [Text.IsGap]) (fun _ => apart) (Token.sign_wellFormed op offset) rfl group
  exact laid

theorem Spells.exists_join (spellsFirst : Spells first p) (spellsSecond : Spells second q)
    (op : Operator) :
    ∃ r : Phrase, Spells ("(" ++ first ++ ")" ++ op.symbol ++ "(" ++ second ++ ")") r ∧
      r.expr = .binary op p.expr q.expr ∧ r.tokens.head?.map Token.position = some 0 := by
  rcases spellsFirst.exists_group 0 with ⟨left, derivesLeft, treeLeft, shortLeft, front, placed⟩
  rcases spellsSecond.exists_operand op (0 + first.length + 2) with
    ⟨right, derivesRight, treeRight, shortRight, operand⟩
  have laid := placed none _ _ (operand (some (closer (0 + first.length + 1))) (by
    rintro t ⟨⟩ clash
    exact clash.not_delimiter.1 rfl))
  refine ⟨.chain left op (sign op (0 + first.length + 2)) right,
    ⟨?_, derivesLeft.join derivesRight _ _, Phrase.forall_short_join shortLeft shortRight _ _⟩,
    by simp [Phrase.expr, treeLeft, treeRight], ?_⟩
  · apply Token.scan_eq_ok_iff.mpr
    simpa [Phrase.tokens] using laid
  · rcases List.exists_cons_of_ne_nil left.tokens_ne_nil with ⟨t, rest, split⟩
    simpa [Phrase.tokens, split] using front

theorem Spells.exists_assign (spells : Spells second q) {name : String}
    (identifier : Text.IsIdentifier name.toList) :
    ∃ r : Phrase, Spells (name ++ "<-(" ++ second ++ ")") r ∧
      r.expr = .binary .assign (.var name .blank) q.expr ∧
      r.tokens.head?.map Token.position = some 0 := by
  let target : Token := ⟨name, .identifier, Token.identifierPriority, 0⟩
  have wellFormed : target.WellFormed := ⟨identifier, rfl⟩
  rcases spells.exists_operand .assign name.length with ⟨right, derives, tree, short, operand⟩
  have behind := operand (some target) (by
    rintro t ⟨⟩ clash
    cases clash <;> contradiction)
  have laid : Laid 0 none ([] ++ target.text.toList ++ _) (target :: _) :=
    .token (by simp [Text.IsGap]) (by simp) wellFormed rfl
      (by simpa [target, String.length_toList] using behind)
  have atom : (Phrase.atom target).Derives 4 := .atom (.inr rfl)
  have shortTarget : ∀ t ∈ (Phrase.atom target).tokens, t.Short := by
    simpa [Phrase.tokens] using Token.short_of_kind_ne (t := target) (by simp [target])
  refine ⟨.chain (.atom target) .assign (sign .assign name.length) right,
    ⟨?_, atom.join derives _ _, Phrase.forall_short_join shortTarget short _ _⟩,
    by simp [Phrase.expr, target, tree], rfl⟩
  apply Token.scan_eq_ok_iff.mpr
  simpa [Phrase.tokens, target, Operator.symbol] using laid

/-- The value of two lines between parentheses, joined by an operator, is the operator applied to
their values, or the failure of the first that fails. A variable that a line is assigned to has the
value of that line. A joined line takes one level more than its parts and more open calls, and is
refused as a whole where there is no room for these. -/
theorem evaluate_join (readsFirst : Reads stack.inner first a)
    (readsSecond : Reads stack.inner second b) :
    (∀ op : Operator, op ≠ .assign → ∀ line,
      line = "(" ++ first ++ ")" ++ op.symbol ++ "(" ++ second ++ ")" →
      (max a.height b.height < stack.inner.spanRoom →
        Line.evaluate stack line = (do
          let x ← Line.evaluate stack first
          let y ← Line.evaluate stack second
          (op.apply x y).mapError .eval) ∨
        Line.evaluate stack line = .error (.eval .tooDeep) ∧
          stack.inner.nodeRoom < max a.frames b.frames + 1) ∧
      (stack.inner.spanRoom ≤ max a.height b.height →
        Line.evaluate stack line = .error (.parse ⟨.tooDeep, some 0⟩))) ∧
    ∀ name : String, Text.IsIdentifier name.toList → ∀ line, line = name ++ "<-(" ++ second ++ ")" →
      (b.height < stack.inner.spanRoom →
        Line.evaluate stack line = Line.evaluate stack second ∨
        Line.evaluate stack line = .error (.eval .tooDeep) ∧ stack.inner.nodeRoom < b.frames + 2) ∧
      (stack.inner.spanRoom ≤ b.height →
        Line.evaluate stack line = .error (.parse ⟨.tooDeep, some 0⟩)) := by
  have valueFirst := readsFirst.evaluate_eq
  have valueSecond := readsSecond.evaluate_eq
  rcases reads_iff.mp readsFirst with ⟨p, spellsFirst, rfl, _⟩
  rcases reads_iff.mp readsSecond with ⟨q, spellsSecond, rfl, _⟩
  constructor
  · rintro op compute _ rfl
    rcases spellsFirst.exists_join spellsSecond op with ⟨r, spells, tree, front⟩
    have height : (Expr.binary op p.expr q.expr).height = max p.expr.height q.expr.height + 1 := rfl
    rw [spells.evaluate_eq, tree, front, valueFirst, valueSecond, height]
    refine ⟨fun low => ?_, fun high => if_neg (by omega)⟩
    rw [if_pos (Nat.succ_le_of_lt low), Expr.evaluate]
    rcases Expr.result_binary_or_tooDeep p.expr q.expr stack.inner.nodeRoom compute with
      joined | ⟨deep, high⟩
    · left
      rw [joined]
      cases first : (p.expr.evaluateWithin stack.inner.nodeRoom).result with
      | error e =>
          rw [Expr.evaluate, first]
          rfl
      | ok x =>
          rw [Expr.evaluate, first, Expr.evaluate]
          cases (q.expr.evaluateWithin stack.inner.nodeRoom).result <;> rfl
    · rw [deep]
      exact .inr ⟨rfl, high⟩
  · rintro name identifier _ rfl
    rcases spellsSecond.exists_assign identifier with ⟨r, spells, tree, front⟩
    have height : (Expr.binary .assign (.var name .blank) q.expr).height = q.expr.height + 1 := by
      have positive := Phrase.one_le_height q.expr
      simp only [Expr.height]
      omega
    rw [spells.evaluate_eq, tree, front, valueSecond, height]
    refine ⟨fun low => ?_, fun high => if_neg (by omega)⟩
    rw [if_pos (Nat.succ_le_of_lt low), Expr.evaluate]
    rcases Expr.result_assign_or_tooDeep q.expr stack.inner.nodeRoom name .blank with
      same | ⟨deep, high⟩
    · rw [same]
      exact .inl rfl
    · rw [deep]
      exact .inr ⟨rfl, high⟩

/-- In `(8-3-2)*(x<-2)` each side keeps its own grouping and its own cells. -/
theorem evaluate_join_product :
    Line.evaluate .empty "8-3-2" = .ok (.number (.int 3)) ∧
    Line.evaluate .empty "(8-3-2)*(x<-2)" = .ok (.number (.int 6)) ∧
    Line.evaluate .empty "y<-(x<-2)" = .ok (.number (.int 2)) := by
  have readsFirst : Reads Stack.empty.inner "8-3-2" (.binary .sub (.binary .sub
      (.literal (.number (.int 8))) (.literal (.number (.int 3)))) (.literal (.number (.int 2)))) :=
    ⟨[⟨"8", .literal, 1000, 0⟩, ⟨"-", .operator, 1, 1⟩, ⟨"3", .literal, 1000, 2⟩,
      ⟨"-", .operator, 1, 3⟩, ⟨"2", .literal, 1000, 4⟩], by decide +kernel, by decide +kernel⟩
  have readsSecond : Reads Stack.empty.inner "x<-2" (.binary .assign (.var "x" .blank)
      (.literal (.number (.int 2)))) :=
    ⟨[⟨"x", .identifier, 999, 0⟩, ⟨"<-", .operator, 0, 1⟩, ⟨"2", .literal, 1000, 3⟩],
      by decide +kernel, by decide +kernel⟩
  have joined := evaluate_join readsFirst readsSecond
  refine ⟨by decide +kernel, ?_, ?_⟩
  · have product := joined.1 .mul (by decide) "(8-3-2)*(x<-2)" (by decide)
    rcases product.1 (by decide) with product | ⟨_, high⟩
    · exact product.trans (by decide +kernel)
    · exact absurd high (by decide)
  · have assigned := joined.2 "y" ⟨'y', [], by simp, by decide, by simp⟩ "y<-(x<-2)" (by decide)
    rcases assigned.1 (by decide) with assigned | ⟨_, high⟩
    · exact assigned.trans (by decide +kernel)
    · exact absurd high (by decide)

end Line

end LineCalc
