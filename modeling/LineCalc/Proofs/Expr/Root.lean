import LineCalc.Proofs.Expr.Groups

/-! The root of a balanced span.

A token that is no delimiter stands within parentheses exactly if some group is open before it. Such a
token weighs more than any token that stands outside. So the root is the rightmost token of least priority
among those outside, or among all if none is outside. -/

namespace LineCalc.Span

def Plain (row : List Token) (place : Nat) : Prop :=
  ∃ t, row[place]? = some t ∧ t.isDelimiter = false

def Surrounded (row : List Token) (place : Nat) : Prop :=
  ∃ front opener inner closer behind, row = front ++ opener :: inner ++ closer :: behind ∧
    opener.isOpen = true ∧ closer.isClose = true ∧ Balanced inner ∧
    front.length < place ∧ place ≤ front.length + inner.length

def Outside (row : List Token) (place : Nat) : Prop := Plain row place ∧ ¬ Surrounded row place

structure LastLeast (row : List Token) (among : Nat → Prop) (place : Nat) (t : Token) : Prop where
  there : row[place]? = some t
  member : among place
  least : ∀ i u, row[i]? = some u → among i → t.priority ≤ u.priority
  last : ∀ i u, row[i]? = some u → among i → u.priority = t.priority → i ≤ place

variable {depth index : Nat} {front rest row : List Token} {t : Token}

/-- Where a group is left open, the last parenthesis that opens one has a balanced row behind it, unless
all groups that are open were so before and the row has closed some of the others. -/
theorem exists_opener_of_openAfter (left : openAfter depth front ≠ 0) :
    (∃ closing, closing < depth ∧ balance closing front = .balanced) ∨
      ∃ before opener inner, front = before ++ opener :: inner ∧ opener.isOpen = true ∧
        balance 0 inner = .balanced := by
  fun_induction openAfter depth front with
  | case1 depth => exact .inl ⟨0, Nat.pos_of_ne_zero left, rfl⟩
  | case2 depth t front opened ih =>
      rcases ih left with ⟨closing, fewer, balanced⟩ | ⟨before, opener, inner, rfl, found⟩
      · cases closing with
        | zero => exact .inr ⟨[], t, front, rfl, opened, balanced⟩
        | succ closing =>
            exact .inl ⟨closing, Nat.lt_of_succ_lt_succ fewer, by rw [balance_open _ _ opened, balanced]⟩
      · exact .inr ⟨t :: before, opener, inner, rfl, found⟩
  | case3 depth t front notOpen closed ih =>
      rcases ih left with ⟨closing, fewer, balanced⟩ | ⟨before, opener, inner, rfl, found⟩
      · exact .inl ⟨closing + 1, by omega, by rw [balance_close_succ _ _ closed, balanced]⟩
      · exact .inr ⟨t :: before, opener, inner, rfl, found⟩
  | case4 depth t front notOpen notClose ih =>
      rcases ih left with ⟨closing, fewer, balanced⟩ | ⟨before, opener, inner, rfl, found⟩
      · refine .inl ⟨closing, fewer, ?_⟩
        rw [balance.eq_def]
        simp only [notOpen, notClose]
        exact balanced
      · exact .inr ⟨t :: before, opener, inner, rfl, found⟩

theorem openAfter_of_surrounded (surrounded : Surrounded (front ++ rest) front.length) :
    openAfter 0 front ≠ 0 := by
  obtain ⟨before, opener, inner, closer, behind, split, opened, _, balanced, after, within⟩ := surrounded
  -- The front reaches beyond the opening parenthesis, but not to the closing one.
  have whole : front <+: before ++ [opener] ++ inner ++ closer :: behind := ⟨rest, by simp [split]⟩
  obtain ⟨part, rfl⟩ : before ++ [opener] <+: front := by
    apply List.prefix_of_prefix_length_le ⟨inner ++ closer :: behind, by simp⟩ whole
    simp
    omega
  obtain ⟨more, rfl⟩ : part <+: inner := by
    apply (List.prefix_append_right_inj (before ++ [opener])).mp
    apply List.prefix_of_prefix_length_le whole (List.prefix_append _ _)
    simp at within ⊢
    omega
  have deeper : openAfter (openAfter 0 before + 1) part = openAfter 0 part + (openAfter 0 before + 1) := by
    rw [← openAfter_add (balanced_iff.mpr balanced), Nat.zero_add]
  rw [openAfter_append, openAfter_append, openAfter, if_pos opened, openAfter, deeper]
  omega

theorem surrounded_iff (balanced : balance 0 (front ++ t :: rest) = .balanced)
    (plain : t.isDelimiter = false) :
    Surrounded (front ++ t :: rest) front.length ↔ openAfter 0 front ≠ 0 := by
  refine ⟨openAfter_of_surrounded, ?_⟩
  intro left
  rcases exists_opener_of_openAfter left with ⟨_, none, _⟩ | ⟨before, opener, inner, rfl, opened, within⟩
  · omega
  · obtain ⟨depth, same⟩ := Nat.exists_eq_succ_of_ne_zero left
    have closes := (balance_of_append balanced).1
    rw [same] at closes
    obtain ⟨others, closer, behind, split, closed, after, _⟩ := exists_closer_of_balance closes
    have filled : 0 < others.length := by
      apply List.length_pos_iff.mpr
      rintro rfl
      obtain ⟨rfl, _⟩ := List.cons.inj split
      simp [Token.isDelimiter_of_isClose closed] at plain
    have joined : balance 0 (inner ++ others) = .balanced := by
      have passed := balance_append within 0 others
      rw [Nat.zero_add] at passed
      rw [passed, after]
    refine ⟨before, opener, inner ++ others, closer, behind, ?_, opened, closed, balanced_iff.mp joined,
      ?_, ?_⟩
    · rw [split]
      simp
    · simp
    · simp
      omega

theorem mem_candidates_iff {c : Candidate} :
    c ∈ candidates depth index row ↔
      ∃ front rest, row = front ++ c.token :: rest ∧ c.token.isDelimiter = false ∧
        c.index = index + front.length ∧
        c.weight = if openAfter depth front = 0 then c.token.priority
          else c.token.priority + enclosedWeight := by
  constructor
  · intro member
    obtain ⟨front, rest, rfl, place⟩ := mem_candidates member
    refine ⟨front, rest, rfl, ?_⟩
    rw [← List.singleton_append, candidates_append, candidates_append] at member
    -- Of the candidates before its place and behind it, none has its index.
    rcases List.mem_append.mp member with early | here
    · have before := (index_of_mem_candidates early).2
      omega
    · rcases List.mem_append.mp here with own | late
      · by_cases delimiter : c.token.isDelimiter = true
        · simp [candidates, delimiter] at own
        · have plain := Bool.eq_false_iff.mpr delimiter
          rw [candidates_plain _ _ _ plain, candidates, List.mem_singleton] at own
          exact ⟨plain, place, congrArg Candidate.weight own⟩
      · have behind := (index_of_mem_candidates late).1
        rw [List.length_singleton] at behind
        omega
  · rintro ⟨front, rest, rfl, plain, place, weight⟩
    rw [candidates_append, candidates_plain _ _ _ plain, ← weight, ← place]
    exact List.mem_append_right _ List.mem_cons_self

theorem pairwise_index_candidates (depth index : Nat) (row : List Token) :
    (candidates depth index row).Pairwise fun c d => c.index < d.index := by
  induction row generalizing depth index with
  | nil => exact .nil
  | cons t rest ih =>
      unfold candidates
      split
      · exact ih _ _
      · split
        · exact ih _ _
        · split
          · exact ih _ _
          · refine .cons ?_ (ih _ _)
            intro d member
            exact (index_of_mem_candidates member).1

theorem mem_candidates_iff_surrounded (balanced : Balanced row) {c : Candidate} :
    c ∈ candidates 0 0 row ↔
      row[c.index]? = some c.token ∧ c.token.isDelimiter = false ∧
        ((¬ Surrounded row c.index ∧ c.weight = c.token.priority) ∨
          (Surrounded row c.index ∧ c.weight = c.token.priority + enclosedWeight)) := by
  have walk := balanced_iff.mpr balanced
  rw [mem_candidates_iff]
  constructor
  · rintro ⟨front, rest, rfl, plain, place, weight⟩
    rw [Nat.zero_add] at place
    rw [place, surrounded_iff walk plain, weight]
    refine ⟨by simp, plain, ?_⟩
    by_cases outside : openAfter 0 front = 0
    · exact .inl ⟨not_not.mpr outside, if_pos outside⟩
    · exact .inr ⟨outside, if_neg outside⟩
  · rintro ⟨there, plain, weight⟩
    obtain ⟨before, same⟩ := List.getElem?_eq_some_iff.mp there
    have split : row = row.take c.index ++ c.token :: row.drop (c.index + 1) := by
      rw [← same, List.getElem_cons_drop, List.take_append_drop]
    have length : (row.take c.index).length = c.index := by
      rw [List.length_take]
      omega
    have opened := surrounded_iff (split ▸ walk) plain
    rw [← split, length] at opened
    refine ⟨_, _, split, plain, by rw [length, Nat.zero_add], ?_⟩
    rcases weight with ⟨outside, own⟩ | ⟨inside, own⟩
    · rw [own, if_pos (not_not.mp (mt opened.mpr outside))]
    · rw [own, if_neg (opened.mp inside)]

theorem le_of_lightest? {c d : Candidate} (lightest : lightest? (candidates depth index row) = some c)
    (member : d ∈ candidates depth index row) :
    c.weight ≤ d.weight ∧ (d.weight = c.weight → d.index ≤ c.index) := by
  refine ⟨weight_le_of_lightest? lightest member, ?_⟩
  intro same
  obtain ⟨front, behind, split, _, after⟩ := exists_split_of_lightest? lightest
  have ordered := pairwise_index_candidates depth index row
  rw [split] at ordered member
  rcases List.mem_append.mp member with early | late
  · exact Nat.le_of_lt ((List.pairwise_append.mp ordered).2.2 d early c List.mem_cons_self)
  · rcases List.mem_cons.mp late with rfl | later
    · exact Nat.le_refl _
    · have heavier := after d later
      omega

section Balanced

variable {c : Candidate}

/-- Where the same is added to the priorities of all tokens, their weights are ordered as these are. -/
theorem lastLeast_of_weight {among : Nat → Prop} {extra : Int}
    (lightest : lightest? (candidates 0 0 row) = some c) (there : row[c.index]? = some c.token)
    (member : among c.index) (weight : c.weight = c.token.priority + extra)
    (others : ∀ i u, row[i]? = some u → among i →
      (⟨i, u, u.priority + extra⟩ : Candidate) ∈ candidates 0 0 row) :
    LastLeast row among c.index c.token where
  there := there
  member := member
  least := by
    intro i u place other
    have order := (le_of_lightest? lightest (others i u place other)).1
    rw [weight] at order
    exact Int.le_of_add_le_add_right order
  last := by
    intro i u place other same
    apply (le_of_lightest? lightest (others i u place other)).2
    rw [weight, same]

theorem lastLeast_outside (balanced : Balanced row) (lightest : lightest? (candidates 0 0 row) = some c)
    (free : ¬ Surrounded row c.index) : LastLeast row (Outside row) c.index c.token := by
  obtain ⟨own, plain, weight⟩ := (mem_candidates_iff_surrounded balanced).mp (mem_of_lightest? lightest)
  obtain ⟨_, light⟩ := weight.resolve_right fun within => free within.1
  apply lastLeast_of_weight lightest own ⟨⟨c.token, own, plain⟩, free⟩ (light.trans (Int.add_zero _).symm)
  rintro i u there ⟨⟨v, same, plain⟩, outside⟩
  cases there.symm.trans same
  exact (mem_candidates_iff_surrounded balanced).mpr
    ⟨there, plain, .inl ⟨outside, Int.add_zero _⟩⟩

theorem lastLeast_plain (balanced : Balanced row) (lightest : lightest? (candidates 0 0 row) = some c)
    (enclosed : ∀ i, ¬ Outside row i) : LastLeast row (Plain row) c.index c.token := by
  have inside {i : Nat} (plain : Plain row i) : Surrounded row i :=
    not_not.mp fun free => enclosed i ⟨plain, free⟩
  obtain ⟨own, plain, weight⟩ := (mem_candidates_iff_surrounded balanced).mp (mem_of_lightest? lightest)
  obtain ⟨_, heavy⟩ := weight.resolve_left fun apart => apart.1 (inside ⟨c.token, own, plain⟩)
  apply lastLeast_of_weight lightest own ⟨c.token, own, plain⟩ heavy
  rintro i u there ⟨v, same, plain⟩
  cases there.symm.trans same
  exact (mem_candidates_iff_surrounded balanced).mpr
    ⟨there, plain, .inr ⟨inside ⟨u, there, plain⟩, rfl⟩⟩

/-- Nothing stands outside if the lightest candidate is surrounded: what is added within parentheses is
more than any priority. -/
theorem not_outside_of_surrounded (wellFormed : ∀ t ∈ row, t.WellFormed) (balanced : Balanced row)
    (lightest : lightest? (candidates 0 0 row) = some c) (inside : Surrounded row c.index) {i : Nat} :
    ¬ Outside row i := by
  rintro ⟨⟨u, there, plain⟩, outside⟩
  obtain ⟨own, plainOwn, weight⟩ :=
    (mem_candidates_iff_surrounded balanced).mp (mem_of_lightest? lightest)
  obtain ⟨_, heavy⟩ := weight.resolve_left fun apart => apart.1 inside
  have other : (⟨i, u, u.priority⟩ : Candidate) ∈ candidates 0 0 row :=
    (mem_candidates_iff_surrounded balanced).mpr ⟨there, plain, .inl ⟨outside, rfl⟩⟩
  have lighter : c.weight ≤ u.priority := weight_le_of_lightest? lightest other
  have heavier : u.priority < c.token.priority + enclosedWeight :=
    priority_lt_enclosed (wellFormed c.token (List.mem_of_getElem? own)) plainOwn
      (wellFormed u (List.mem_of_getElem? there)) plain
  omega

theorem exists_root_of_balanced (balanced : Balanced row) (filled : ∃ t ∈ row, t.isDelimiter = false) :
    ∃ c, root row = .ok c ∧ lightest? (candidates 0 0 row) = some c := by
  unfold root
  rw [unpaired?_eq_none_iff.mpr balanced]
  cases found : lightest? (candidates 0 0 row) with
  | some c => exact ⟨c, rfl, rfl⟩
  | none =>
      obtain ⟨t, member, plain⟩ := filled
      obtain ⟨front, rest, rfl⟩ := List.append_of_mem member
      have empty := eq_nil_of_lightest?_eq_none found
      rw [candidates_place front rest plain] at empty
      simp at empty

end Balanced

/-- A span that is balanced and has a token other than delimiters has a root. This is the rightmost token
of least priority among those outside all parentheses of the span, if there are any, and among all tokens
but delimiters if there are none. What stands before the span and behind it does not matter. -/
theorem root_respects_groups (row : List Token) (wellFormed : ∀ t ∈ row, t.WellFormed) (start stop : Nat)
    (balanced : Balanced (row.extract start stop))
    (filled : ∃ t ∈ row.extract start stop, t.isDelimiter = false) :
    ∃ c, root (row.extract start stop) = .ok c ∧
      start + c.index < stop ∧ row[start + c.index]? = some c.token ∧
      ((∃ i, Outside (row.extract start stop) i) →
        LastLeast (row.extract start stop) (Outside (row.extract start stop)) c.index c.token) ∧
      ((∀ i, ¬ Outside (row.extract start stop) i) →
        LastLeast (row.extract start stop) (Plain (row.extract start stop)) c.index c.token) ∧
      ∀ other : List Token, (∀ i, start ≤ i → i < stop → other[i]? = row[i]?) →
        root (other.extract start stop) = .ok c := by
  obtain ⟨c, found, lightest⟩ := exists_root_of_balanced balanced filled
  have formed : ∀ t ∈ row.extract start stop, t.WellFormed := by
    intro t member
    exact wellFormed t (List.mem_of_mem_drop (List.mem_of_mem_take member))
  have there := ((mem_candidates_iff_surrounded balanced).mp (mem_of_lightest? lightest)).1
  have short : c.index < stop - start := by
    by_contra long
    rw [List.getElem?_take_eq_none (Nat.not_lt.mp long)] at there
    contradiction
  rw [List.getElem?_take_of_lt short, List.getElem?_drop] at there
  refine ⟨c, found, by omega, there, ?_, lastLeast_plain balanced lightest, ?_⟩
  · rintro ⟨i, outside⟩
    apply lastLeast_outside balanced lightest
    intro inside
    exact not_outside_of_surrounded formed balanced lightest inside outside
  · intro other agree
    have same : other.extract start stop = row.extract start stop := by
      apply List.ext_getElem?
      intro i
      simp only [List.getElem?_take, List.getElem?_drop]
      split
      · exact agree (start + i) (by omega) (by omega)
      · rfl
    rw [same, found]

/-- In `7*((1-2)-3-(4))` the row within the outer parentheses is split at the last sign outside its own. In
`(1+2)(3+4)` nothing stands outside, and the last sign of all is taken. -/
theorem root_respects_groups_difference :
    (∃ row c, Token.scan "7*((1-2)-3-(4))" = .ok row ∧ root (row.extract 3 14) = .ok c ∧
      LastLeast (row.extract 3 14) (Outside (row.extract 3 14)) c.index c.token ∧
      c.token = ⟨"-", .operator, 1, 10⟩) ∧
    ∃ row c, Token.scan "(1+2)(3+4)" = .ok row ∧ root (row.extract 0 10) = .ok c ∧
      LastLeast (row.extract 0 10) (Plain (row.extract 0 10)) c.index c.token ∧
      c.token = ⟨"+", .operator, 1, 7⟩ := by
  constructor
  · let row : List Token := [⟨"7", .literal, 1000, 0⟩, ⟨"*", .operator, 2, 1⟩,
      ⟨"(", .delimiter, -1, 2⟩, ⟨"(", .delimiter, -1, 3⟩, ⟨"1", .literal, 1000, 4⟩,
      ⟨"-", .operator, 1, 5⟩, ⟨"2", .literal, 1000, 6⟩, ⟨")", .delimiter, -1, 7⟩,
      ⟨"-", .operator, 1, 8⟩, ⟨"3", .literal, 1000, 9⟩, ⟨"-", .operator, 1, 10⟩,
      ⟨"(", .delimiter, -1, 11⟩, ⟨"4", .literal, 1000, 12⟩, ⟨")", .delimiter, -1, 13⟩,
      ⟨")", .delimiter, -1, 14⟩]
    have scanned : Token.scan "7*((1-2)-3-(4))" = .ok row := by decide +kernel
    have balanced : Balanced (row.extract 3 14) := balanced_iff.mp (by decide)
    have candidate : (⟨7, ⟨"-", .operator, 1, 10⟩, 1⟩ : Candidate) ∈ candidates 0 0 (row.extract 3 14) := by
      decide
    obtain ⟨there, plain, weight⟩ := (mem_candidates_iff_surrounded balanced).mp candidate
    have free := (weight.resolve_right (by simp [enclosedWeight])).1
    obtain ⟨c, found, _, _, outside, _⟩ := root_respects_groups row (Token.wellFormed_of_scan scanned) 3 14
      balanced ⟨_, List.mem_of_getElem? there, plain⟩
    have same : root (row.extract 3 14) = .ok ⟨7, ⟨"-", .operator, 1, 10⟩, 1⟩ := by decide
    refine ⟨row, c, scanned, found, outside ⟨7, ⟨_, there, plain⟩, free⟩, ?_⟩
    rw [found] at same
    cases same
    rfl
  · let row : List Token := Expr.sumsSideBySide.flatten
    have balanced : Balanced (row.extract 0 10) := Expr.balanced_sumsSideBySide
    have wellFormed := Token.wellFormed_of_scan Expr.scan_sumsSideBySide
    have lightest : lightest? (candidates 0 0 (row.extract 0 10)) =
        some ⟨7, ⟨"+", .operator, 1, 7⟩, 10001⟩ := by decide
    obtain ⟨there, plain, weight⟩ :=
      (mem_candidates_iff_surrounded balanced).mp (mem_of_lightest? lightest)
    have inside := (weight.resolve_left (by simp)).1
    obtain ⟨c, found, _, _, _, all, _⟩ := root_respects_groups row wellFormed 0 10 balanced
      ⟨_, List.mem_of_getElem? there, plain⟩
    have same : root (row.extract 0 10) = .ok ⟨7, ⟨"+", .operator, 1, 7⟩, 10001⟩ := by decide
    refine ⟨row, c, Expr.scan_sumsSideBySide, found,
      all fun i => not_outside_of_surrounded wellFormed balanced lightest inside, ?_⟩
    rw [found] at same
    cases same
    rfl

end LineCalc.Span
