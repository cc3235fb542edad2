import LineCalc.Proofs.Expr.Stripping
import LineCalc.Proofs.Line.Position

/-! Groups that stand side by side.

As long as a balanced row has a token outside its groups, the root is one of these, and both sides of
it are balanced again. A row without such a token is a row of groups. The root is then taken from inside
a group, which leaves the parentheses of that group on different sides. -/

namespace LineCalc

namespace Span

def openAfter (depth : Nat) : List Token → Nat
  | [] => depth
  | t :: rest =>
    if t.isOpen then openAfter (depth + 1) rest
    else if t.isClose then openAfter (depth - 1) rest
    else openAfter depth rest

def Enclosed (row : List Token) : Prop :=
  ∀ front t behind, row = front ++ t :: behind → t.isDelimiter = false → openAfter 0 front ≠ 0

variable {depth index : Nat} {front rest row : List Token} {t : Token}

theorem candidates_append (depth index : Nat) (front rest : List Token) :
    candidates depth index (front ++ rest) =
      candidates depth index front ++
        candidates (openAfter depth front) (index + front.length) rest := by
  induction front generalizing depth index with
  | nil => rfl
  | cons t front ih =>
      have further : index + 1 + front.length = index + (t :: front).length := by
        rw [List.length_cons]
        omega
      rw [List.cons_append, candidates, candidates, openAfter, ← further]
      by_cases opened : t.isOpen = true
      · simp only [opened, if_true]
        exact ih (depth + 1) (index + 1)
      · by_cases closed : t.isClose = true
        · simp only [opened, closed, if_true]
          exact ih (depth - 1) (index + 1)
        · by_cases delimiter : t.isDelimiter = true
          · simp only [opened, closed, delimiter, if_true]
            exact ih depth (index + 1)
          · simp only [opened, closed, delimiter]
            exact congrArg (List.cons _) (ih depth (index + 1))

theorem openAfter_append (depth : Nat) (front rest : List Token) :
    openAfter depth (front ++ rest) = openAfter (openAfter depth front) rest := by
  fun_induction openAfter depth front with
  | case1 => rfl
  | case2 depth t front opened ih => simpa [openAfter, opened] using ih
  | case3 depth t front notOpen closed ih => simpa [openAfter, notOpen, closed] using ih
  | case4 depth t front notOpen notClose ih => simpa [openAfter, notOpen, notClose] using ih

theorem balance_of_append (balanced : balance depth (front ++ rest) = .balanced) :
    balance (openAfter depth front) rest = .balanced ∧
      balance depth front = if openAfter depth front = 0 then .balanced else .unclosed := by
  fun_induction openAfter depth front with
  | case1 depth => exact ⟨balanced, rfl⟩
  | case2 depth t front opened ih =>
      rw [List.cons_append, balance_open _ _ opened] at balanced
      rw [balance_open _ _ opened]
      exact ih balanced
  | case3 depth t front notOpen closed ih =>
      cases depth with
      | zero => simp [balance, notOpen, closed] at balanced
      | succ depth =>
          rw [List.cons_append, balance_close_succ _ _ closed] at balanced
          rw [balance_close_succ _ _ closed]
          exact ih balanced
  | case4 depth t front notOpen notClose ih =>
      rw [List.cons_append, balance.eq_def] at balanced
      rw [balance.eq_def _ (t :: front)]
      simp only [notOpen, notClose] at balanced ⊢
      exact ih balanced

theorem openAfter_of_balanced (balanced : balance depth front = .balanced) :
    openAfter depth front = 0 := by
  have whole : balance depth (front ++ []) = .balanced := by rw [List.append_nil, balanced]
  have same := (balance_of_append whole).2
  rw [balanced] at same
  by_contra left
  rw [if_neg left] at same
  contradiction

theorem openAfter_add (balanced : balance depth (front ++ rest) = .balanced) (more : Nat) :
    openAfter (depth + more) front = openAfter depth front + more := by
  fun_induction openAfter depth front with
  | case1 => rfl
  | case2 depth t front opened ih =>
      rw [List.cons_append, balance_open _ _ opened] at balanced
      rw [openAfter, if_pos opened, Nat.add_right_comm]
      exact ih balanced
  | case3 depth t front notOpen closed ih =>
      cases depth with
      | zero => simp [balance, notOpen, closed] at balanced
      | succ depth =>
          rw [List.cons_append, balance_close_succ _ _ closed] at balanced
          have fewer : depth + 1 + more - 1 = depth + more := by omega
          rw [openAfter, if_neg notOpen, if_pos closed, fewer]
          exact ih balanced
  | case4 depth t front notOpen notClose ih =>
      rw [List.cons_append, balance.eq_def] at balanced
      simp only [notOpen, notClose] at balanced
      rw [openAfter, if_neg notOpen, if_neg notClose]
      exact ih balanced

theorem exists_closer_of_balance (balanced : balance (depth + 1) row = .balanced) :
    ∃ inner closer behind, row = inner ++ closer :: behind ∧ closer.isClose = true ∧
      balance 0 inner = .balanced ∧ balance depth behind = .balanced := by
  -- The walk is generalised to a front that has `more` groups of its own to close.
  suffices walk : ∀ more, balance (more + (depth + 1)) row = .balanced →
      ∃ inner closer behind, row = inner ++ closer :: behind ∧ closer.isClose = true ∧
        balance more inner = .balanced ∧ balance depth behind = .balanced by
    apply walk 0
    rw [Nat.zero_add]
    exact balanced
  clear balanced
  induction row with
  | nil =>
      intro more balanced
      simp [balance] at balanced
  | cons t rest ih =>
      intro more balanced
      by_cases opened : t.isOpen = true
      · rw [balance_open _ _ opened, Nat.add_right_comm] at balanced
        obtain ⟨inner, closer, behind, rfl, closed, within, after⟩ := ih (more + 1) balanced
        exact ⟨t :: inner, closer, behind, rfl, closed, by rw [balance_open _ _ opened, within], after⟩
      · by_cases closed : t.isClose = true
        · rw [← Nat.add_assoc, balance_close_succ _ _ closed] at balanced
          cases more with
          | zero =>
              rw [Nat.zero_add] at balanced
              exact ⟨[], t, rest, rfl, closed, rfl, balanced⟩
          | succ more =>
              rw [Nat.add_right_comm] at balanced
              obtain ⟨inner, closer, behind, rfl, close, within, after⟩ := ih more balanced
              exact ⟨t :: inner, closer, behind, rfl, close,
                by rw [balance_close_succ _ _ closed, within], after⟩
        · rw [balance.eq_def] at balanced
          simp only [opened, closed] at balanced
          obtain ⟨inner, closer, behind, rfl, close, within, after⟩ := ih more balanced
          refine ⟨t :: inner, closer, behind, rfl, close, ?_, after⟩
          rw [balance.eq_def]
          simp only [opened, closed]
          exact within

theorem openAfter_of_isWrapped {group : List Token} (wrapped : isWrapped group = true)
    {behind : List Token} (split : group = front ++ t :: behind) (plain : t.isDelimiter = false) :
    openAfter 0 front ≠ 0 := by
  obtain ⟨opener, inner, closer, rfl, opened, closed, balanced⟩ := isWrapped_iff.mp wrapped
  cases front with
  | nil =>
      cases split
      simp [Token.isDelimiter_of_isOpen opened] at plain
  | cons first front =>
      obtain ⟨rfl, tail⟩ := List.cons.inj split
      rw [openAfter, if_pos opened]
      -- Either the token stands within the parentheses of the group or it is the last of these.
      rcases List.append_eq_append_iff.mp tail with ⟨more, rfl, last⟩ | ⟨more, rfl, last⟩
      · cases more with
        | nil =>
            cases last
            simp [Token.isDelimiter_of_isClose closed] at plain
        | cons u more =>
            have nothing := congrArg List.length last
            simp at nothing
      · rw [openAfter_add balanced 1]
        omega

theorem balance_flatten {groups : List (List Token)} (wrapped : ∀ group ∈ groups, isWrapped group = true) :
    balance 0 groups.flatten = .balanced := by
  induction groups with
  | nil => rfl
  | cons group groups ih =>
      obtain ⟨own, others⟩ := List.forall_mem_cons.mp wrapped
      have passed := balance_append (balanced_of_isWrapped own) 0 groups.flatten
      rw [Nat.zero_add] at passed
      rw [List.flatten_cons, passed]
      exact ih others

theorem enclosed_flatten {groups : List (List Token)}
    (wrapped : ∀ group ∈ groups, isWrapped group = true) : Enclosed groups.flatten := by
  induction groups with
  | nil =>
      intro front t behind split
      simp at split
  | cons group groups ih =>
      obtain ⟨own, others⟩ := List.forall_mem_cons.mp wrapped
      intro front t behind split plain
      rw [List.flatten_cons] at split
      rcases List.append_eq_append_iff.mp split with ⟨more, rfl, tail⟩ | ⟨more, within, tail⟩
      · rw [openAfter_append, openAfter_of_balanced (balanced_of_isWrapped own)]
        exact ih others more t behind tail plain
      · cases more with
        | nil =>
            rw [List.append_nil] at within
            subst within
            rw [openAfter_of_balanced (balanced_of_isWrapped own)]
            exact ih others [] t behind tail.symm plain
        | cons u more =>
            obtain ⟨rfl, _⟩ := List.cons.inj tail
            exact openAfter_of_isWrapped own within plain

theorem isOpen_of_enclosed (wellFormed : t.WellFormed) (balanced : balance 0 (t :: rest) = .balanced)
    (enclosed : Enclosed (t :: rest)) : t.isOpen = true := by
  have delimiter : t.isDelimiter = true := by
    apply Bool.of_not_eq_false
    intro plain
    exact enclosed [] t rest rfl plain rfl
  rcases wellFormed.isOpen_or_isClose delimiter with opened | closed
  · exact opened
  · simp [balance, closed, Token.isOpen_of_isClose closed] at balanced

theorem exists_groups_of_enclosed (wellFormed : ∀ t ∈ row, t.WellFormed)
    (balanced : balance 0 row = .balanced) (enclosed : Enclosed row) :
    ∃ groups : List (List Token), (∀ group ∈ groups, isWrapped group = true) ∧
      row = groups.flatten := by
  induction length : row.length using Nat.strong_induction_on generalizing row with
  | _ n ih =>
      cases row with
      | nil => exact ⟨[], by simp, rfl⟩
      | cons opener rest =>
          have opened : opener.isOpen = true :=
            isOpen_of_enclosed (wellFormed opener List.mem_cons_self) balanced enclosed
          rw [balance_open _ _ opened] at balanced
          obtain ⟨inner, closer, behind, rfl, closed, within, after⟩ := exists_closer_of_balance balanced
          have wrapped : isWrapped (opener :: inner ++ [closer]) = true :=
            isWrapped_iff.mpr ⟨opener, inner, closer, rfl, opened, closed, within⟩
          have split : opener :: (inner ++ closer :: behind) = opener :: inner ++ [closer] ++ behind := by
            simp
          have outside : Enclosed behind := by
            intro front t others same plain
            have place := enclosed (opener :: inner ++ [closer] ++ front) t others
              (by rw [split, same]; simp) plain
            rwa [openAfter_append, openAfter_of_balanced (balanced_of_isWrapped wrapped)] at place
          have shorter : behind.length < n := by
            rw [← length, split, List.length_append, List.length_append]
            simp
          have formed : ∀ t ∈ behind, t.WellFormed := by
            intro t member
            apply wellFormed t
            rw [split]
            exact List.mem_append_right _ member
          obtain ⟨groups, others, flat⟩ := ih _ shorter formed after outside rfl
          refine ⟨(opener :: inner ++ [closer]) :: groups, List.forall_mem_cons.mpr ⟨wrapped, others⟩, ?_⟩
          rw [List.flatten_cons, split, flat]

structure SideBySide (groups : List (List Token)) : Prop where
  several : 2 ≤ groups.length
  wrapped : ∀ group ∈ groups, isWrapped group = true

theorem SideBySide.exists_open {groups : List (List Token)} (sideBySide : SideBySide groups) :
    ∃ opener rest, groups.flatten = opener :: rest ∧ opener.isOpen = true := by
  cases groups with
  | nil => simpa using sideBySide.several
  | cons group groups =>
      obtain ⟨opener, inner, closer, rfl, opened, _⟩ :=
        isWrapped_iff.mp (sideBySide.wrapped group List.mem_cons_self)
      exact ⟨opener, inner ++ [closer] ++ groups.flatten, by simp, opened⟩

theorem isWrapped_append {group : List Token} (wrapped : isWrapped group = true) (t : Token)
    (rest : List Token) : isWrapped (group ++ t :: rest) = false := by
  obtain ⟨opener, inner, closer, rfl, opened, closed, balanced⟩ := isWrapped_iff.mp wrapped
  have split : opener :: inner ++ [closer] ++ t :: rest = opener :: (inner ++ closer :: t :: rest) := by
    simp
  rw [split, isWrapped, closesLast_append balanced 0, closesLast_close_zero _ closed]
  simp

theorem SideBySide.not_isWrapped {groups : List (List Token)} (sideBySide : SideBySide groups) :
    isWrapped groups.flatten = false := by
  cases groups with
  | nil => rfl
  | cons group groups =>
      obtain ⟨own, others⟩ := List.forall_mem_cons.mp sideBySide.wrapped
      cases groups with
      | nil => simpa using sideBySide.several
      | cons next groups =>
          obtain ⟨opener, inner, closer, rfl, _⟩ := isWrapped_iff.mp (others next List.mem_cons_self)
          rw [List.flatten_cons, List.flatten_cons, List.cons_append, List.cons_append]
          exact isWrapped_append own opener _

theorem exists_sideBySide_of_enclosed (wellFormed : ∀ t ∈ row, t.WellFormed) (nonempty : row ≠ [])
    (bare : isWrapped row = false) (balanced : balance 0 row = .balanced) (enclosed : Enclosed row) :
    ∃ groups, SideBySide groups ∧ row = groups.flatten := by
  obtain ⟨groups, wrapped, rfl⟩ := exists_groups_of_enclosed wellFormed balanced enclosed
  cases groups with
  | nil => contradiction
  | cons group groups =>
      cases groups with
      | nil =>
          have whole := wrapped group List.mem_cons_self
          simp [whole] at bare
      | cons next groups => exact ⟨_, ⟨by simp, wrapped⟩, rfl⟩

theorem priority_bounds (wellFormed : t.WellFormed) (plain : t.isDelimiter = false) :
    0 ≤ t.priority ∧ t.priority ≤ 1000 := by
  have weighed := wellFormed.priority?_eq
  cases kind : t.kind with
  | literal | identifier =>
      simp only [kind, Token.priority?, Option.some.injEq] at weighed
      rw [← weighed]
      decide
  | operator =>
      simp only [kind, Token.priority?, Option.map_eq_some_iff] at weighed
      obtain ⟨op, _, priority⟩ := weighed
      rw [← priority]
      cases op <;> decide
  | delimiter => simp [Token.isDelimiter, kind] at plain

theorem priority_lt_enclosed {u : Token} (wellFormed : t.WellFormed) (plain : t.isDelimiter = false)
    (other : u.WellFormed) (plainOther : u.isDelimiter = false) :
    u.priority < t.priority + enclosedWeight := by
  have lower := (priority_bounds wellFormed plain).1
  have upper := (priority_bounds other plainOther).2
  rw [enclosedWeight]
  omega

theorem candidates_place (front rest : List Token) (plain : t.isDelimiter = false) :
    candidates 0 0 (front ++ t :: rest) =
      candidates 0 0 front ++
        ⟨front.length, t,
            if openAfter 0 front = 0 then t.priority else t.priority + enclosedWeight⟩ ::
          candidates (openAfter 0 front) (front.length + 1) rest := by
  rw [candidates_append, candidates_plain _ _ _ plain, Nat.zero_add]

theorem weight_le_of_lightest? {all : List Candidate} {c d : Candidate} (lightest : lightest? all = some c)
    (member : d ∈ all) : c.weight ≤ d.weight := by
  obtain ⟨front, behind, rfl, ahead, after⟩ := exists_split_of_lightest? lightest
  rcases List.mem_append.mp member with early | late
  · exact ahead d early
  · rcases List.mem_cons.mp late with rfl | later
    · exact Int.le_refl _
    · exact Int.le_of_lt (after d later)

theorem weight_of_lightest? {left right : List Token} {sign : Token} {weight : Int}
    (lightest : lightest? (candidates 0 0 (left ++ sign :: right)) = some ⟨left.length, sign, weight⟩)
    (plain : sign.isDelimiter = false) :
    weight = if openAfter 0 left = 0 then sign.priority else sign.priority + enclosedWeight := by
  rw [candidates_place left right plain] at lightest
  have place := eq_of_lightest?_of_index_eq lightest rfl
    (fun x member => by simpa using (index_of_mem_candidates member).2)
    (fun y member => (index_of_mem_candidates member).1)
  exact congrArg Candidate.weight place.1

theorem enclosed_of_operatorRoot {left right : List Token} {sign : Token} {weight : Int}
    (wellFormed : ∀ t ∈ left ++ sign :: right, t.WellFormed)
    (root : operatorRoot (left ++ sign :: right) = .ok ⟨left.length, sign, weight⟩)
    (inside : openAfter 0 left ≠ 0) : Enclosed (left ++ sign :: right) := by
  obtain ⟨_, lightest, kind, _⟩ := operatorRoot_eq_ok_iff.mp root
  have plain : sign.isDelimiter = false := Phrase.isDelimiter_of_operator kind
  have own := weight_of_lightest? lightest plain
  rw [if_neg inside] at own
  intro front t behind split other outside
  have heavier : weight ≤ t.priority := by
    rw [split, candidates_place front behind other, if_pos outside] at lightest
    exact weight_le_of_lightest? lightest (List.mem_append_right _ List.mem_cons_self)
  have lighter : t.priority < sign.priority + enclosedWeight :=
    priority_lt_enclosed (wellFormed sign (by simp)) plain (wellFormed t (by simp [split])) other
  omega

theorem balance_of_strip {start : Nat} {span : Span} (stripped : strip start row = .ok span)
    (balanced : balance 0 row = .balanced) : balance 0 span.tokens = .balanced := by
  obtain ⟨pairs, inner, wraps, _, same⟩ := exists_wraps_strip start row
  rw [stripped] at same
  split at same
  · contradiction
  · cases same
    exact balanced_iff.mpr (wraps.balanced_iff.mpr (balanced_iff.mp balanced))

end Span

namespace Expr

open LineCalc.Span

theorem not_balanced_of_plan {start : Nat} {tokens : List Token} {position : Option Int}
    (planned : plan start tokens = .done (.error (.parse ⟨.invalidParenthesis, position⟩))) :
    balance 0 tokens ≠ .balanced := by
  intro balanced
  have stripping := stripped_strip start tokens
  cases stripped : strip start tokens with
  | error e =>
      rw [stripped] at stripping
      cases stripping
      simp [plan, stripped] at planned
  | ok span =>
      have inside := balance_of_strip stripped balanced
      obtain ⟨inner, row⟩ := span
      cases row with
      | nil => simp [plan, stripped] at planned
      | cons t rest =>
          cases rest with
          | nil =>
              simp only [plan, stripped, Plan.done.injEq] at planned
              have cause := (ofToken_eq_parse_iff.mp planned).2
              simp at cause
          | cons u rest =>
              cases root : operatorRoot (t :: u :: rest) with
              | ok c => simp [plan, stripped, root] at planned
              | error e =>
                  simp only [plan, stripped, root, Plan.done.injEq, Except.error.injEq,
                    BuildError.parse.injEq] at planned
                  rw [planned] at root
                  cases rootless_of_operatorRoot root with
                  | unpaired unpaired =>
                      rw [unpaired?_eq_none_iff.mpr (balanced_iff.mp inside)] at unpaired
                      contradiction

/-- Both sides of a split of a balanced span are balanced, unless the span is a row of groups. -/
theorem sides_balanced_or_sideBySide {span left right : Span} {cut : Split}
    (wellFormed : ∀ t ∈ span.tokens, t.WellFormed)
    (planned : plan span.start span.tokens = .split cut left right) :
    (balance 0 left.tokens = .balanced ∧ balance 0 right.tokens = .balanced) ∨
      ∃ groups pairs, Encloses groups.flatten pairs span.tokens ∧ SideBySide groups ∧
        ∃ t ∈ groups.flatten, t.kind = .operator := by
  have cases := planned_plan span.start span.tokens
  rw [planned] at cases
  cases cases with
  | @split pairs left right sign weight encloses bare root =>
      obtain ⟨paired, _, kind, _⟩ := operatorRoot_eq_ok_iff.mp root
      have plain : sign.isDelimiter = false := Phrase.isDelimiter_of_operator kind
      have balanced := balanced_iff.mpr (unpaired?_eq_none_iff.mp paired)
      have inner : ∀ t ∈ left ++ sign :: right, t.WellFormed := by
        intro t member
        exact wellFormed t (encloses.mem member)
      obtain ⟨after, before⟩ := balance_of_append balanced
      by_cases outside : openAfter 0 left = 0
      · rw [if_pos outside] at before
        rw [outside, balance_plain _ _ plain] at after
        exact .inl ⟨before, after⟩
      · have enclosed := enclosed_of_operatorRoot inner root outside
        obtain ⟨groups, sideBySide, flat⟩ :=
          exists_sideBySide_of_enclosed inner (by simp) bare balanced enclosed
        rw [flat] at encloses
        exact .inr ⟨groups, pairs, encloses, sideBySide, sign, by simp [← flat], kind⟩

/-- What building a balanced row goes down to is balanced, unless it has split groups side by side. -/
theorem Reaches.balanced_or_sideBySide {row : List Token} {span : Span} (reached : Reaches row span)
    (wellFormed : ∀ t ∈ row, t.WellFormed) (balanced : balance 0 row = .balanced) :
    balance 0 span.tokens = .balanced ∨
      ∃ whole groups pairs, Reaches row whole ∧ Encloses groups.flatten pairs whole.tokens ∧
        SideBySide groups ∧ ∃ t ∈ groups.flatten, t.kind = .operator := by
  have formed {whole : Span} (within : Reaches row whole) : ∀ t ∈ whole.tokens, t.WellFormed := by
    intro t member
    exact wellFormed t (within.mem .bare member)
  cases reached with
  | whole => exact .inl balanced
  | left within planned =>
      rcases sides_balanced_or_sideBySide (formed within) planned with sides | ⟨groups, pairs, found⟩
      · exact .inl sides.1
      · exact .inr ⟨_, groups, pairs, within, found⟩
  | right within planned =>
      rcases sides_balanced_or_sideBySide (formed within) planned with sides | ⟨groups, pairs, found⟩
      · exact .inl sides.2
      · exact .inr ⟨_, groups, pairs, within, found⟩

/-- Groups side by side are split within one of them, and what precedes the root there has a group
that is not closed. -/
theorem build_sideBySide {groups : List (List Token)} {c : Candidate} (sideBySide : SideBySide groups)
    (root : operatorRoot groups.flatten = .ok c) (far : 2 ≤ c.index) (first : Option Int)
    (levels start : Nat) :
    (build first (levels + 2) start groups.flatten).result =
      .error (.parse ⟨.invalidParenthesis, groups.flatten.head?.map Token.position⟩) := by
  obtain ⟨left, right, _, _, split, place⟩ := exists_sides_of_operatorRoot root
  have kind := (operatorRoot_eq_ok_iff.mp root).2.2.1
  have balanced := balance_flatten sideBySide.wrapped
  have inside : openAfter 0 left ≠ 0 :=
    enclosed_flatten sideBySide.wrapped left c.token right split (Phrase.isDelimiter_of_operator kind)
  have long : 2 ≤ groups.flatten.length := by
    rw [split, List.length_append, List.length_cons]
    omega
  obtain ⟨opener, rest, head, opened⟩ := sideBySide.exists_open
  have front : ∃ more, left = opener :: more := by
    cases left with
    | nil => simp at place; omega
    | cons t more =>
        rw [split, List.cons_append] at head
        exact ⟨more, by rw [(List.cons.inj head).1]⟩
  obtain ⟨more, rfl⟩ := front
  have unpaired : unpaired? (opener :: more) = some opener := by
    rw [split] at balanced
    have unclosed := (balance_of_append balanced).2
    rw [if_neg inside] at unclosed
    simp [unpaired?, unclosed, opened]
  have takeLeft : groups.flatten.take c.index = opener :: more := by rw [split, place]; simp
  rw [Phrase.build_of_root (strip_of_not_isWrapped start sideBySide.not_isWrapped) long root, takeLeft,
    build_succ, plan_of_unpaired? (by omega) unpaired, head]
  rfl

/-- Parentheses that pair are blamed only for groups that stand side by side with an operator in one of
them, which building comes to and takes for its root. And where such groups are the whole row, they are
blamed for it if the root has two tokens before it. -/
theorem balanced_blamed_for_groups (first : Option Int) (levels : Nat) (tokens : List Token)
    (wellFormed : ∀ t ∈ tokens, t.WellFormed) (balanced : Balanced tokens) :
    (∀ error, (build first levels 0 tokens).result = .error (.parse error) →
      error.cause.message = "invalid parenthesis" →
      ∃ span groups pairs, Reaches tokens span ∧ Encloses groups.flatten pairs span.tokens ∧
        SideBySide groups ∧ ∃ t ∈ groups.flatten, t.kind = .operator) ∧
    ∀ groups pairs c, Encloses groups.flatten pairs tokens → SideBySide groups →
      operatorRoot groups.flatten = .ok c → 2 ≤ c.index → 2 ≤ levels →
      (build first levels 0 tokens).result =
        .error (.parse ⟨.invalidParenthesis, groups.flatten.head?.map Token.position⟩) := by
  constructor
  · intro error failed message
    have cause : error.cause = .invalidParenthesis := ParseCause.message_injective message
    obtain ⟨_, position⟩ := error
    cases cause
    cases origin_of_error .whole failed with
    | span reached planned =>
        have unbalanced := not_balanced_of_plan planned
        exact (reached.balanced_or_sideBySide wellFormed (balanced_iff.mpr balanced)).resolve_left unbalanced
  · intro groups pairs c encloses sideBySide root far enough
    obtain ⟨more, rfl⟩ : ∃ more, levels = more + 2 := ⟨levels - 2, by omega⟩
    obtain ⟨opener, rest, split, _⟩ := sideBySide.exists_open
    have nonempty : groups.flatten ≠ [] := by simp [split]
    rw [build_of_encloses encloses nonempty (balance_flatten sideBySide.wrapped)]
    exact build_sideBySide sideBySide root far first more _

def sumsSideBySide : List (List Token) :=
  [[⟨"(", .delimiter, -1, 0⟩, ⟨"1", .literal, 1000, 1⟩, ⟨"+", .operator, 1, 2⟩,
      ⟨"2", .literal, 1000, 3⟩, ⟨")", .delimiter, -1, 4⟩],
    [⟨"(", .delimiter, -1, 5⟩, ⟨"3", .literal, 1000, 6⟩, ⟨"+", .operator, 1, 7⟩,
      ⟨"4", .literal, 1000, 8⟩, ⟨")", .delimiter, -1, 9⟩]]

theorem scan_sumsSideBySide : Token.scan "(1+2)(3+4)" = .ok sumsSideBySide.flatten := by decide +kernel

theorem balanced_sumsSideBySide : Balanced sumsSideBySide.flatten := balanced_iff.mp (by decide)

/-- Two sums side by side are blamed for the parenthesis in front of the first of them. -/
theorem balanced_blamed_for_groups_sums :
    (∀ t ∈ sumsSideBySide.flatten, t.WellFormed) ∧ Balanced sumsSideBySide.flatten ∧
      (build none 2 0 sumsSideBySide.flatten).result = .error (.parse ⟨.invalidParenthesis, some 0⟩) ∧
      ∃ span groups pairs, Reaches sumsSideBySide.flatten span ∧
        Encloses groups.flatten pairs span.tokens ∧ SideBySide groups ∧
        ∃ t ∈ groups.flatten, t.kind = .operator := by
  have wellFormed := Token.wellFormed_of_scan scan_sumsSideBySide
  have sideBySide : SideBySide sumsSideBySide := ⟨by decide, by simp [sumsSideBySide]; decide⟩
  have root : operatorRoot sumsSideBySide.flatten = .ok ⟨7, ⟨"+", .operator, 1, 7⟩, 10001⟩ := by decide
  obtain ⟨only, blamed⟩ :=
    balanced_blamed_for_groups none 2 sumsSideBySide.flatten wellFormed balanced_sumsSideBySide
  have refused := blamed sumsSideBySide 0 _ .bare sideBySide root (by decide) (by decide)
  exact ⟨wellFormed, balanced_sumsSideBySide, refused, only _ refused rfl⟩

/-- In `(1+2)(3+4)` every parenthesis has its partner. -/
theorem balanced_blamed :
    ∃ tokens error, Token.scan "(1+2)(3+4)" = .ok tokens ∧ Balanced tokens ∧
      (ofTokens .empty tokens).result = .error (.parse error) ∧
      error.cause.message = "invalid parenthesis" :=
  ⟨sumsSideBySide.flatten, ⟨.invalidParenthesis, some 0⟩, scan_sumsSideBySide, balanced_sumsSideBySide,
    by decide +kernel, rfl⟩

end Expr

end LineCalc
