import LineCalc.Proofs.Expr.InOrder

namespace LineCalc

namespace Span

variable {depth : Nat} {tokens : List Token} {t : Token}

theorem exists_balanced_of_closesLast (closes : closesLast depth tokens = true) :
    ∃ inner closer, tokens = inner ++ [closer] ∧ closer.isClose = true ∧
      balance depth inner = .balanced := by
  fun_induction closesLast depth tokens with
  | case1 => contradiction
  | case2 depth t rest opened ih =>
      obtain ⟨inner, closer, rfl, close, balanced⟩ := ih closes
      exact ⟨t :: inner, closer, rfl, close, by rw [balance_open inner depth opened, balanced]⟩
  | case3 t rest _ close =>
      rw [List.isEmpty_iff.mp closes]
      exact ⟨[], t, rfl, close, rfl⟩
  | case4 t rest _ close depth ih =>
      obtain ⟨inner, closer, rfl, closed, balanced⟩ := ih closes
      exact ⟨t :: inner, closer, rfl, closed, by rw [balance_close_succ inner depth close, balanced]⟩
  | case5 depth t rest notOpen notClose ih =>
      obtain ⟨inner, closer, rfl, close, balanced⟩ := ih closes
      refine ⟨t :: inner, closer, rfl, close, ?_⟩
      rw [balance.eq_def]
      simp only [notOpen, notClose]
      exact balanced

theorem isWrapped_iff :
    isWrapped tokens = true ↔ ∃ opener inner closer, tokens = opener :: inner ++ [closer] ∧
      opener.isOpen = true ∧ closer.isClose = true ∧ balance 0 inner = .balanced := by
  constructor
  · intro wrapped
    cases tokens with
    | nil => contradiction
    | cons opener rest =>
        simp only [isWrapped, Bool.and_eq_true] at wrapped
        obtain ⟨inner, closer, rfl, close, balanced⟩ := exists_balanced_of_closesLast wrapped.2
        exact ⟨opener, inner, closer, rfl, wrapped.1, close, balanced⟩
  · rintro ⟨opener, inner, closer, rfl, opened, close, balanced⟩
    rw [List.cons_append, isWrapped, opened, Bool.true_and, closesLast_append balanced 0,
      closesLast_close_zero [] close]
    rfl

theorem balanced_of_isWrapped (wrapped : isWrapped tokens = true) : balance 0 tokens = .balanced := by
  obtain ⟨opener, inner, closer, rfl, opened, close, balanced⟩ := isWrapped_iff.mp wrapped
  exact Encloses.balanced (.pair opened close .bare) balanced

theorem mem_of_balance_eq_stray (stray : balance depth tokens = .stray t) :
    t ∈ tokens ∧ t.isClose = true := by
  fun_induction balance depth tokens with
  | case1 | case2 => contradiction
  | case3 _ _ _ _ ih | case5 _ _ _ _ _ ih | case6 _ _ _ _ _ ih =>
      exact ⟨List.mem_cons_of_mem _ (ih stray).1, (ih stray).2⟩
  | case4 closer rest _ close =>
      cases stray
      exact ⟨List.mem_cons_self, close⟩

theorem exists_open_of_balance_eq_unclosed (unclosed : balance 0 tokens = .unclosed) :
    ∃ opener ∈ tokens, opener.isOpen = true := by
  generalize start : 0 = depth at unclosed
  fun_induction balance depth tokens with
  | case1 | case4 => contradiction
  | case2 depth nonzero => exact absurd start.symm nonzero
  | case3 _ opener _ opened => exact ⟨opener, List.mem_cons_self, opened⟩
  | case5 => contradiction
  | case6 _ _ _ _ _ ih =>
      obtain ⟨opener, member, opened⟩ := ih start unclosed
      exact ⟨opener, List.mem_cons_of_mem _ member, opened⟩

theorem mem_of_unpaired? (unpaired : unpaired? tokens = some t) :
    t ∈ tokens ∧ (t.isOpen = true ∨ t.isClose = true) := by
  unfold unpaired? at unpaired
  cases walk : balance 0 tokens with
  | balanced =>
      rw [walk] at unpaired
      contradiction
  | stray closer =>
      rw [walk] at unpaired
      cases unpaired
      obtain ⟨member, close⟩ := mem_of_balance_eq_stray walk
      exact ⟨member, .inr close⟩
  | unclosed =>
      rw [walk] at unpaired
      exact ⟨List.mem_of_find?_eq_some unpaired, .inl (List.find?_some unpaired)⟩

theorem unpaired?_eq_none_iff : unpaired? tokens = none ↔ Balanced tokens := by
  rw [← balanced_iff]
  unfold unpaired?
  cases walk : balance 0 tokens with
  | balanced => simp
  | stray closer => simp
  | unclosed =>
      obtain ⟨opener, member, opened⟩ := exists_open_of_balance_eq_unclosed walk
      simp only [List.find?_eq_none, reduceCtorEq, iff_false]
      intro none
      exact none opener member opened

theorem operatorRoot_of_unpaired? (unpaired : unpaired? tokens = some t) :
    operatorRoot tokens = .error ⟨.invalidParenthesis, some t.position⟩ := by
  simp only [operatorRoot, root, unpaired]

end Span

namespace Expr

open LineCalc.Span

theorem plan_of_unpaired? {start : Nat} {tokens : List Token} {t : Token} (long : 2 ≤ tokens.length)
    (unpaired : unpaired? tokens = some t) :
    plan start tokens = .done (.error (.parse ⟨.invalidParenthesis, some t.position⟩)) := by
  have bare : isWrapped tokens = false := by
    apply Bool.eq_false_iff.mpr
    intro wrapped
    have balanced := unpaired?_eq_none_iff.mpr (balanced_iff.mp (balanced_of_isWrapped wrapped))
    rw [unpaired] at balanced
    contradiction
  match tokens with
  | [] | [_] => simp at long
  | a :: b :: rest =>
      simp only [plan, strip_of_not_isWrapped start bare, operatorRoot_of_unpaired? unpaired]

/-- Parentheses that do not pair are what a row is refused for, whatever else is wrong with it: one of
them is blamed, and nothing is split. -/
theorem ofTokens_unbalanced (stack : Stack) (room : 0 < stack.spanRoom) (tokens : List Token)
    (long : 2 ≤ tokens.length) (unbalanced : ¬ Balanced tokens) :
    ∃ error t, ofTokens stack tokens = ⟨[], .error (.parse error)⟩ ∧
      error.cause.message = "invalid parenthesis" ∧ error.position = some t.position ∧
      t ∈ tokens ∧ (t.isOpen = true ∨ t.isClose = true) := by
  obtain ⟨t, unpaired⟩ := Option.ne_none_iff_exists'.mp (mt unpaired?_eq_none_iff.mp unbalanced)
  exact ⟨⟨.invalidParenthesis, some t.position⟩, t,
    ofTokens_of_done room (plan_of_unpaired? long unpaired), rfl, rfl, mem_of_unpaired? unpaired⟩

/-- In `(1))(+` the operator has no sides, and parentheses stand at both ends. -/
theorem ofTokens_unbalanced_stray :
    ∃ tokens error t, tokens.map Token.text = ["(", "1", ")", ")", "(", "+"] ∧ ¬ Balanced tokens ∧
      ofTokens .empty tokens = ⟨[], .error (.parse error)⟩ ∧
      error.cause.message = "invalid parenthesis" ∧ error.position = some t.position ∧
      t ∈ tokens ∧ (t.isOpen = true ∨ t.isClose = true) := by
  let tokens : List Token := [⟨"(", .delimiter, -1, 0⟩, ⟨"1", .literal, 20000, 1⟩,
    ⟨")", .delimiter, -1, 2⟩, ⟨")", .delimiter, 7, 3⟩, ⟨"(", .delimiter, -1, 4⟩,
    ⟨"+", .operator, 1, 5⟩]
  have unbalanced : ¬ Balanced tokens := mt balanced_iff.mpr (by decide)
  obtain ⟨error, t, refused, blamed⟩ :=
    ofTokens_unbalanced .empty (by decide) tokens (by decide) unbalanced
  exact ⟨tokens, error, t, rfl, unbalanced, refused, blamed⟩

end Expr

end LineCalc
