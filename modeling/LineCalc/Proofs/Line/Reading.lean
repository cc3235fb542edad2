import LineCalc.Line
import LineCalc.Proofs.Expr.Parsing
import LineCalc.Proofs.Token.Compose

namespace LineCalc

namespace Token

variable {t u : Token}

theorem short_iff_of_word_eq (same : t.word = u.word) : t.Short ↔ u.Short := by
  rw [Short, Short, kind_eq_of_word_eq same, text_eq_of_word_eq same]

theorem forall_short_of_words_eq {row other : List Token} (same : row.map word = other.map word)
    (short : ∀ t ∈ row, t.Short) : ∀ u ∈ other, u.Short := by
  intro u member
  have present : u.word ∈ row.map word := by
    rw [same]
    exact List.mem_map_of_mem member
  rcases List.mem_map.mp present with ⟨t, within, alike⟩
  exact (short_iff_of_word_eq alike).mp (short t within)

end Token

namespace Phrase

theorem exists_of_words_eq (p : Phrase) {row : List Token}
    (same : row.map Token.word = p.tokens.map Token.word) :
    ∃ q : Phrase, q.tokens = row ∧ q.expr = p.expr ∧
      ∀ level, p.Derives level → q.Derives level := by
  induction p generalizing row with
  | atom t =>
      obtain ⟨u, rfl, word⟩ : ∃ u, row = [u] ∧ u.word = t.word := by
        simpa [tokens, List.map_eq_cons_iff] using same
      have kind := Token.kind_eq_of_word_eq word
      refine ⟨atom u, rfl, ?_, ?_⟩
      · simp [expr, kind, Token.text_eq_of_word_eq word]
      · intro level derives
        exact (Derives.atom (kind ▸ derives.atom_inv)).loosen derives.level_le
  | group opener inner closer ih =>
      obtain ⟨opener', middle, closer', rfl, opens, within, closes⟩ :
          ∃ opener' middle closer', row = opener' :: middle ++ [closer'] ∧
            opener'.word = opener.word ∧ middle.map Token.word = inner.tokens.map Token.word ∧
            closer'.word = closer.word := by
        simp only [tokens, List.cons_append, List.map_cons, List.map_append, List.map_nil,
          List.map_eq_cons_iff, List.map_eq_append_iff] at same
        obtain ⟨opener', _, rfl, opens, middle, _, rfl, within, closer', _, rfl, closes, nothing⟩ :=
          same
        exact ⟨opener', middle, closer', by simpa using nothing, opens, within, closes⟩
      rcases ih within with ⟨q, rfl, tree, derived⟩
      refine ⟨group opener' q closer', rfl, tree, ?_⟩
      intro level derives
      rcases derives.group_inv with ⟨opened, closed, inside⟩
      rw [← Token.isOpen_eq_of_word_eq opens] at opened
      rw [← Token.isClose_eq_of_word_eq closes] at closed
      exact (Derives.group opened closed (derived 0 inside)).loosen derives.level_le
  | chain left op sign right ihLeft ihRight =>
      obtain ⟨front, sign', behind, rfl, first, signs, second⟩ :
          ∃ front sign' behind, row = front ++ sign' :: behind ∧
            front.map Token.word = left.tokens.map Token.word ∧ sign'.word = sign.word ∧
            behind.map Token.word = right.tokens.map Token.word := by
        simp only [tokens, List.map_cons, List.map_append, List.map_eq_cons_iff,
          List.map_eq_append_iff] at same
        obtain ⟨front, _, rfl, first, sign', behind, rfl, signs, second⟩ := same
        exact ⟨front, sign', behind, rfl, first, signs, second⟩
      rcases ihLeft first with ⟨p, rfl, treeLeft, derivedLeft⟩
      rcases ihRight second with ⟨q, rfl, treeRight, derivedRight⟩
      refine ⟨chain p op sign' q, rfl, by simp [expr, treeLeft, treeRight], ?_⟩
      intro level derives
      rcases derives.chain_inv with ⟨own, le, member, kind, symbol, derivesLeft, derivesRight⟩
      rw [← Token.kind_eq_of_word_eq signs] at kind
      rw [← Token.text_eq_of_word_eq signs] at symbol
      exact (Derives.chain member kind symbol (derivedLeft own derivesLeft)
        (derivedRight (own + 1) derivesRight)).loosen le

end Phrase

namespace Line

structure Spells (line : String) (p : Phrase) : Prop where
  scanned : Token.scan line = .ok p.tokens
  derives : p.Derives 0
  short : ∀ t ∈ p.tokens, t.Short

def Reads (stack : Stack) (line : String) (e : Expr) : Prop :=
  ∃ tokens, Token.scan line = .ok tokens ∧ (Expr.ofTokens stack tokens).result = .ok e

variable {stack : Stack} {line : String} {p : Phrase} {e : Expr}

theorem exists_spells (derives : p.Derives 0) (wellFormed : ∀ t ∈ p.tokens, t.WellFormed)
    (short : ∀ t ∈ p.tokens, t.Short) :
    ∃ q, Spells (" ".intercalate (p.tokens.map Token.text)) q ∧ q.expr = p.expr := by
  obtain ⟨row, scanned, words⟩ := Token.exists_scan_words wellFormed
  obtain ⟨q, rfl, same, derived⟩ := p.exists_of_words_eq words
  have shortMoved := Token.forall_short_of_words_eq words.symm short
  exact ⟨q, ⟨scanned, derived 0 derives, shortMoved⟩, same⟩

theorem Spells.ofTokens_result (spells : Spells line p) (stack : Stack) :
    (Expr.ofTokens stack p.tokens).result =
      if p.expr.height ≤ stack.spanRoom then .ok p.expr
      else .error (.parse ⟨.tooDeep, p.tokens.head?.map Token.position⟩) :=
  spells.derives.build_result (Token.wellFormed_of_scan spells.scanned) spells.short _ _ _

theorem reads_iff :
    Reads stack line e ↔ ∃ p, Spells line p ∧ p.expr = e ∧ e.height ≤ stack.spanRoom := by
  constructor
  · rintro ⟨row, scanned, result⟩
    have built : Phrase.Built row (Expr.ofTokens stack row).result :=
      Phrase.built_build _ _ _ (Token.wellFormed_of_scan scanned)
    rw [result] at built
    cases built with
    | @tree p derives spans short =>
        subst spans
        have spells : Spells line p := ⟨scanned, derives, short⟩
        refine ⟨p, spells, rfl, ?_⟩
        by_contra high
        rw [spells.ofTokens_result, if_neg high] at result
        contradiction
  · rintro ⟨p, spells, rfl, low⟩
    refine ⟨p.tokens, spells.scanned, ?_⟩
    rw [spells.ofTokens_result, if_pos low]

theorem Reads.evaluate_eq (reads : Reads stack.inner line e) :
    Line.evaluate stack line = (e.evaluate stack.inner).result.mapError .eval := by
  rcases reads with ⟨row, scanned, result⟩
  simp only [Line.evaluate, scanned, result]

theorem Spells.evaluate_eq (spells : Spells line p) (stack : Stack) :
    Line.evaluate stack line =
      if p.expr.height ≤ stack.inner.spanRoom then
        (p.expr.evaluate stack.inner).result.mapError .eval
      else .error (.parse ⟨.tooDeep, p.tokens.head?.map Token.position⟩) := by
  have result := spells.ofTokens_result stack.inner
  by_cases low : p.expr.height ≤ stack.inner.spanRoom
  · rw [if_pos low] at result ⊢
    exact Reads.evaluate_eq ⟨p.tokens, spells.scanned, result⟩
  · rw [if_neg low] at result ⊢
    simp only [Line.evaluate, spells.scanned, result]
    rfl

end Line

end LineCalc
