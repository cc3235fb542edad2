import LineCalc.Proofs.Expr.Balance

/-! Parentheses without a partner.

Each closing parenthesis goes with the nearest opening one before it that has no partner yet. Of a row that
is not balanced, the first closing parenthesis without a partner is blamed. If every closing one has a
partner, the first opening one of the row is blamed, whether it has a partner or not. -/

namespace LineCalc

namespace Span

/-- The places of the parentheses that are left without a partner. `pending` are those of opening ones
that have none yet, the nearest first, and `index` tokens precede. -/
def lone (pending : List Nat) (index : Nat) : List Token → List Nat
  | [] => pending.reverse
  | t :: rest =>
    if t.isOpen then lone (index :: pending) (index + 1) rest
    else if t.isClose then
      match pending with
      | [] => index :: lone [] (index + 1) rest
      | _ :: pending => lone pending (index + 1) rest
    else lone pending (index + 1) rest

variable {pending : List Nat} {index i : Nat} {tokens : List Token} {t : Token}

theorem le_of_mem_lone (member : i ∈ lone pending index tokens) : i ∈ pending ∨ index ≤ i := by
  fun_induction lone pending index tokens with
  | case1 pending index => exact .inl (List.mem_reverse.mp member)
  | case2 pending index t rest opened ih =>
      rcases ih member with earlier | later
      · rcases List.mem_cons.mp earlier with rfl | waiting
        · exact .inr (Nat.le_refl _)
        · exact .inl waiting
      · exact .inr (by omega)
  | case3 index t rest notOpen closed ih =>
      rcases List.mem_cons.mp member with rfl | further
      · exact .inr (Nat.le_refl _)
      · rcases ih further with none | later
        · contradiction
        · exact .inr (by omega)
  | case4 index t rest notOpen closed nearest pending ih =>
      rcases ih member with waiting | later
      · exact .inl (List.mem_cons_of_mem _ waiting)
      · exact .inr (by omega)
  | case5 pending index t rest notOpen notClose ih =>
      rcases ih member with waiting | later
      · exact .inl waiting
      · exact .inr (by omega)

/-- The closing parenthesis at which a walk stops is the first of all that have no partner. -/
theorem lone_of_stray (index : Nat) (stray : balance pending.length tokens = .stray t) :
    ∃ front behind, tokens = front ++ t :: behind ∧ t.isClose = true ∧
      lone pending index tokens = (index + front.length) :: lone [] (index + front.length + 1) behind := by
  fun_induction lone pending index tokens with
  | case1 pending index =>
      rw [balance] at stray
      split at stray <;> contradiction
  | case2 pending index u rest opened ih =>
      rw [balance_open _ _ opened] at stray
      obtain ⟨front, behind, rfl, closed, found⟩ := ih stray
      refine ⟨u :: front, behind, rfl, closed, ?_⟩
      rw [found, List.length_cons, Nat.add_assoc, Nat.add_comm 1]
  | case3 index u rest notOpen closed ih =>
      simp only [balance, notOpen, closed, List.length_nil] at stray
      cases stray
      exact ⟨[], rest, rfl, closed, rfl⟩
  | case4 index u rest notOpen closed nearest pending ih =>
      rw [List.length_cons, balance_close_succ _ _ closed] at stray
      obtain ⟨front, behind, rfl, close, found⟩ := ih stray
      refine ⟨u :: front, behind, rfl, close, ?_⟩
      rw [found, List.length_cons, Nat.add_assoc, Nat.add_comm 1]
  | case5 pending index u rest notOpen notClose ih =>
      rw [balance.eq_def] at stray
      simp only [notOpen, notClose] at stray
      obtain ⟨front, behind, rfl, close, found⟩ := ih stray
      refine ⟨u :: front, behind, rfl, close, ?_⟩
      rw [found, List.length_cons, Nat.add_assoc, Nat.add_comm 1]

/-- A walk that leaves groups open leaves nothing but opening parentheses without a partner. -/
theorem lone_of_unclosed (index : Nat) (unclosed : balance pending.length tokens = .unclosed) :
    lone pending index tokens ≠ [] ∧
      ∀ i ∈ lone pending index tokens, i ∈ pending ∨
        ∃ front opener behind, tokens = front ++ opener :: behind ∧ opener.isOpen = true ∧
          i = index + front.length := by
  -- An opening parenthesis behind the first token stands one place further on.
  have further {index i : Nat} {u : Token} {rest : List Token}
      (found : ∃ front opener behind, rest = front ++ opener :: behind ∧ opener.isOpen = true ∧
        i = index + 1 + front.length) :
      ∃ front opener behind, u :: rest = front ++ opener :: behind ∧ opener.isOpen = true ∧
        i = index + front.length := by
    obtain ⟨front, opener, behind, rfl, opened, place⟩ := found
    refine ⟨u :: front, opener, behind, rfl, opened, ?_⟩
    rw [place, List.length_cons]
    omega
  fun_induction lone pending index tokens with
  | case1 pending index =>
      rw [balance] at unclosed
      split at unclosed
      · contradiction
      · next waiting =>
        have nonempty : pending.reverse ≠ [] := by simpa using waiting
        exact ⟨nonempty, fun i member => .inl (List.mem_reverse.mp member)⟩
  | case2 pending index u rest opened ih =>
      rw [balance_open _ _ opened] at unclosed
      obtain ⟨nonempty, openers⟩ := ih unclosed
      refine ⟨nonempty, fun i member => ?_⟩
      rcases openers i member with earlier | found
      · rcases List.mem_cons.mp earlier with rfl | waiting
        · exact .inr ⟨[], u, rest, rfl, opened, rfl⟩
        · exact .inl waiting
      · exact .inr (further found)
  | case3 index u rest notOpen closed ih =>
      simp [balance, notOpen, closed] at unclosed
  | case4 index u rest notOpen closed nearest pending ih =>
      rw [List.length_cons, balance_close_succ _ _ closed] at unclosed
      obtain ⟨nonempty, openers⟩ := ih unclosed
      refine ⟨nonempty, fun i member => ?_⟩
      rcases openers i member with waiting | found
      · exact .inl (List.mem_cons_of_mem _ waiting)
      · exact .inr (further found)
  | case5 pending index u rest notOpen notClose ih =>
      rw [balance.eq_def] at unclosed
      simp only [notOpen, notClose] at unclosed
      obtain ⟨nonempty, openers⟩ := ih unclosed
      refine ⟨nonempty, fun i member => ?_⟩
      rcases openers i member with waiting | found
      · exact .inl waiting
      · exact .inr (further found)

/-- Which parenthesis is blamed. A closing one is the first of all that have no partner. An opening one is
the first of the row, and only opening ones have no partner. -/
inductive Blamed (tokens : List Token) (index : Nat) (t : Token) : Prop
  | closer (closed : t.isClose = true) (alone : index ∈ lone [] 0 tokens)
      (first : ∀ i ∈ lone [] 0 tokens, index ≤ i) : Blamed tokens index t
  | opener (opened : t.isOpen = true)
      (first : ∀ i u, tokens[i]? = some u → u.isOpen = true → index ≤ i)
      (left : lone [] 0 tokens ≠ [])
      (openers : ∀ i ∈ lone [] 0 tokens, ∃ u, tokens[i]? = some u ∧ u.isOpen = true) :
      Blamed tokens index t

theorem blamed_of_unpaired? (unpaired : unpaired? tokens = some t) :
    ∃ index, tokens[index]? = some t ∧ Blamed tokens index t := by
  unfold unpaired? at unpaired
  cases walk : balance 0 tokens with
  | balanced =>
      rw [walk] at unpaired
      contradiction
  | stray closer =>
      rw [walk] at unpaired
      cases unpaired
      have stopped : balance ([] : List Nat).length tokens = .stray t := walk
      obtain ⟨front, behind, rfl, closed, found⟩ := lone_of_stray 0 stopped
      rw [Nat.zero_add] at found
      refine ⟨front.length, by simp, .closer closed ?_ ?_⟩
      · rw [found]
        exact List.mem_cons_self
      · intro i member
        rw [found] at member
        rcases List.mem_cons.mp member with rfl | later
        · exact Nat.le_refl _
        · rcases le_of_mem_lone later with none | behind
          · contradiction
          · exact Nat.le_of_succ_le behind
  | unclosed =>
      rw [walk] at unpaired
      obtain ⟨opened, front, behind, rfl, before⟩ := List.find?_eq_some_iff_append.mp unpaired
      have ended : balance ([] : List Nat).length (front ++ t :: behind) = .unclosed := walk
      obtain ⟨left, openers⟩ := lone_of_unclosed 0 ended
      refine ⟨front.length, by simp, .opener opened ?_ left ?_⟩
      · intro i u place opener
        by_contra early
        rw [List.getElem?_append_left (by omega)] at place
        have closed := before u (List.mem_of_getElem? place)
        simp [opener] at closed
      · intro i member
        rcases openers i member with none | ⟨others, opener, rest, split, isOpen, place⟩
        · contradiction
        · refine ⟨opener, ?_, isOpen⟩
          rw [split, place, Nat.zero_add]
          simp

end Span

namespace Expr

open LineCalc.Span

/-- A row that is not balanced is refused for a parenthesis that has no partner, unless every closing
parenthesis has one and the first opening one too: then this is blamed in the place of those behind it. -/
theorem ofTokens_blames (stack : Stack) (room : 0 < stack.spanRoom) (tokens : List Token)
    (long : 2 ≤ tokens.length) (unbalanced : ¬ Balanced tokens) :
    ∃ index t, tokens[index]? = some t ∧
      ofTokens stack tokens = ⟨[], .error (.parse ⟨.invalidParenthesis, some t.position⟩)⟩ ∧
      Blamed tokens index t := by
  obtain ⟨t, unpaired⟩ := Option.ne_none_iff_exists'.mp (mt unpaired?_eq_none_iff.mp unbalanced)
  obtain ⟨index, place, blamed⟩ := blamed_of_unpaired? unpaired
  exact ⟨index, t, place, ofTokens_of_done room (plan_of_unpaired? long unpaired), blamed⟩

/-- In `(1)+(2` the first parenthesis is blamed, and the last one has no partner. -/
theorem ofTokens_blames_first :
    ∃ tokens index t, Token.scan "(1)+(2" = .ok tokens ∧ tokens[index]? = some t ∧
      ofTokens .empty tokens = ⟨[], .error (.parse ⟨.invalidParenthesis, some t.position⟩)⟩ ∧
      Blamed tokens index t ∧ lone [] 0 tokens = [4] := by
  let tokens : List Token := [⟨"(", .delimiter, -1, 0⟩, ⟨"1", .literal, 1000, 1⟩,
    ⟨")", .delimiter, -1, 2⟩, ⟨"+", .operator, 1, 3⟩, ⟨"(", .delimiter, -1, 4⟩,
    ⟨"2", .literal, 1000, 5⟩]
  have unbalanced : ¬ Balanced tokens := mt balanced_iff.mpr (by decide)
  obtain ⟨index, t, place, refused, blamed⟩ :=
    ofTokens_blames .empty (by decide) tokens (by decide) unbalanced
  exact ⟨tokens, index, t, by decide +kernel, place, refused, blamed, by decide⟩

/-- The parenthesis that `(1)+(2` is refused for has its partner. -/
theorem ofTokens_blames_partner :
    ∃ tokens error, Token.scan "(1)+(2" = .ok tokens ∧ 2 ≤ tokens.length ∧ ¬ Balanced tokens ∧
      (ofTokens .empty tokens).result = .error (.parse error) ∧
      error.cause.message = "invalid parenthesis" ∧
      ∀ i ∈ lone [] 0 tokens, tokens[i]?.map Token.position ≠ error.position := by
  let tokens : List Token := [⟨"(", .delimiter, -1, 0⟩, ⟨"1", .literal, 1000, 1⟩,
    ⟨")", .delimiter, -1, 2⟩, ⟨"+", .operator, 1, 3⟩, ⟨"(", .delimiter, -1, 4⟩,
    ⟨"2", .literal, 1000, 5⟩]
  exact ⟨tokens, ⟨.invalidParenthesis, some 0⟩, by decide +kernel, by decide,
    mt balanced_iff.mpr (by decide), by decide +kernel, rfl, by decide⟩

end Expr

end LineCalc
