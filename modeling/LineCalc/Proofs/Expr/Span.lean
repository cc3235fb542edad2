import LineCalc.Expr.Span

namespace LineCalc

namespace Token

theorem isOpen_of_not_isDelimiter {t : Token} (plain : t.isDelimiter = false) :
    t.isOpen = false := by
  simp [isOpen, plain]

theorem isClose_of_not_isDelimiter {t : Token} (plain : t.isDelimiter = false) :
    t.isClose = false := by
  simp [isClose, plain]

theorem isDelimiter_of_isOpen {t : Token} (opened : t.isOpen = true) : t.isDelimiter = true :=
  ((Bool.and_eq_true _ _).mp opened).1

theorem isDelimiter_of_isClose {t : Token} (closed : t.isClose = true) : t.isDelimiter = true :=
  ((Bool.and_eq_true _ _).mp closed).1

theorem isOpen_of_isClose {t : Token} (close : t.isClose = true) : t.isOpen = false := by
  apply Bool.eq_false_iff.mpr
  intro opened
  simp [isClose_of_isOpen opened] at close

end Token

namespace Span

section Steps

variable {t : Token} (rest : List Token)

theorem closesLast_open (depth : Nat) (opened : t.isOpen = true) :
    closesLast depth (t :: rest) = closesLast (depth + 1) rest := by
  simp [closesLast, opened]

theorem closesLast_close_succ (depth : Nat) (close : t.isClose = true) :
    closesLast (depth + 1) (t :: rest) = closesLast depth rest := by
  simp [closesLast, close, Token.isOpen_of_isClose close]

theorem closesLast_close_zero (close : t.isClose = true) :
    closesLast 0 (t :: rest) = rest.isEmpty := by
  simp [closesLast, close, Token.isOpen_of_isClose close]

theorem closesLast_plain (depth : Nat) (plain : t.isDelimiter = false) :
    closesLast depth (t :: rest) = closesLast depth rest := by
  simp [closesLast, Token.isOpen_of_not_isDelimiter plain, Token.isClose_of_not_isDelimiter plain]

theorem balance_open (depth : Nat) (opened : t.isOpen = true) :
    balance depth (t :: rest) = balance (depth + 1) rest := by
  simp [balance, opened]

theorem balance_close_succ (depth : Nat) (close : t.isClose = true) :
    balance (depth + 1) (t :: rest) = balance depth rest := by
  simp [balance, close, Token.isOpen_of_isClose close]

theorem balance_plain (depth : Nat) (plain : t.isDelimiter = false) :
    balance depth (t :: rest) = balance depth rest := by
  simp [balance, Token.isOpen_of_not_isDelimiter plain, Token.isClose_of_not_isDelimiter plain]

theorem candidates_open (depth index : Nat) (opened : t.isOpen = true) :
    candidates depth index (t :: rest) = candidates (depth + 1) (index + 1) rest := by
  simp [candidates, opened]

theorem candidates_close (depth index : Nat) (close : t.isClose = true) :
    candidates depth index (t :: rest) = candidates (depth - 1) (index + 1) rest := by
  simp [candidates, close, Token.isOpen_of_isClose close]

theorem candidates_plain (depth index : Nat) (plain : t.isDelimiter = false) :
    candidates depth index (t :: rest) =
      ⟨index, t, if depth = 0 then t.priority else t.priority + enclosedWeight⟩ ::
        candidates depth (index + 1) rest := by
  simp [candidates, plain, Token.isOpen_of_not_isDelimiter plain,
    Token.isClose_of_not_isDelimiter plain]

end Steps

/-- A part that leaves open as many groups as it found is passed over. -/
theorem balance_append {depth : Nat} {front : List Token} (balanced : balance depth front = .balanced)
    (more : Nat) (rest : List Token) : balance (depth + more) (front ++ rest) = balance more rest := by
  fun_induction balance depth front with
  | case1 => rw [Nat.zero_add, List.nil_append]
  | case2 | case4 => contradiction
  | case3 depth t front opened ih =>
      rw [List.cons_append, balance_open _ _ opened, Nat.add_right_comm]
      exact ih balanced
  | case5 t front _ close depth ih =>
      rw [List.cons_append, Nat.succ_add, balance_close_succ _ _ close]
      exact ih balanced
  | case6 depth t front notOpen notClose ih =>
      rw [List.cons_append, balance.eq_def]
      simp only [notOpen, notClose]
      exact ih balanced

theorem closesLast_append {depth : Nat} {front : List Token}
    (balanced : balance depth front = .balanced) (more : Nat) (rest : List Token) :
    closesLast (depth + more) (front ++ rest) = closesLast more rest := by
  fun_induction balance depth front with
  | case1 => rw [Nat.zero_add, List.nil_append]
  | case2 | case4 => contradiction
  | case3 depth t front opened ih =>
      rw [List.cons_append, closesLast_open _ _ opened, Nat.add_right_comm]
      exact ih balanced
  | case5 t front _ close depth ih =>
      rw [List.cons_append, Nat.succ_add, closesLast_close_succ _ _ close]
      exact ih balanced
  | case6 depth t front notOpen notClose ih =>
      rw [List.cons_append, closesLast.eq_def]
      simp only [notOpen, notClose]
      exact ih balanced

theorem lightest?_cons_of_none {c : Candidate} {rest : List Candidate}
    (none : lightest? rest = none) : lightest? (c :: rest) = some c := by
  simp [lightest?, none]

theorem lightest?_cons_of_some {c best : Candidate} {rest : List Candidate}
    (some : lightest? rest = some best) :
    lightest? (c :: rest) = if c.weight < best.weight then .some c else .some best := by
  simp [lightest?, some]

theorem eq_nil_of_lightest?_eq_none {all : List Candidate} (none : lightest? all = none) :
    all = [] := by
  cases all with
  | nil => rfl
  | cons c rest =>
      cases found : lightest? rest with
      | none => simp [lightest?_cons_of_none found] at none
      | some best =>
          rw [lightest?_cons_of_some found] at none
          split at none <;> contradiction

theorem exists_split_of_lightest? {all : List Candidate} {c : Candidate}
    (h : lightest? all = some c) :
    ∃ front behind, all = front ++ c :: behind ∧ (∀ x ∈ front, c.weight ≤ x.weight) ∧
      ∀ y ∈ behind, c.weight < y.weight := by
  induction all generalizing c with
  | nil => contradiction
  | cons a rest ih =>
      cases found : lightest? rest with
      | none =>
          rw [lightest?_cons_of_none found] at h
          cases h
          rw [eq_nil_of_lightest?_eq_none found]
          exact ⟨[], [], rfl, by simp, by simp⟩
      | some best =>
          rcases ih found with ⟨front, behind, rfl, ahead, after⟩
          rw [lightest?_cons_of_some found] at h
          split at h
          · next lighter =>
            cases h
            refine ⟨[], front ++ best :: behind, rfl, by simp, ?_⟩
            intro y member
            rcases List.mem_append.mp member with early | late
            · exact Int.lt_of_lt_of_le lighter (ahead y early)
            · rcases List.mem_cons.mp late with rfl | later
              · exact lighter
              · exact Int.lt_trans lighter (after y later)
          · next heavier =>
            cases h
            refine ⟨a :: front, behind, rfl, ?_, after⟩
            intro x member
            rcases List.mem_cons.mp member with rfl | early
            · exact Int.not_lt.mp heavier
            · exact ahead x early

theorem mem_of_lightest? {all : List Candidate} {c : Candidate} (h : lightest? all = some c) :
    c ∈ all := by
  rcases exists_split_of_lightest? h with ⟨front, behind, rfl, _, _⟩
  simp

theorem lightest?_append {front behind : List Candidate} {c : Candidate}
    (ahead : ∀ x ∈ front, c.weight ≤ x.weight) (after : ∀ y ∈ behind, c.weight < y.weight) :
    lightest? (front ++ c :: behind) = some c := by
  induction front with
  | nil =>
      cases found : lightest? behind with
      | none => exact lightest?_cons_of_none found
      | some best =>
          rcases exists_split_of_lightest? found with ⟨_, _, rfl, _, _⟩
          have lighter : c.weight < best.weight := after best (by simp)
          rw [List.nil_append, lightest?_cons_of_some found, if_pos lighter]
  | cons a front ih =>
      have rest := ih fun x member => ahead x (List.mem_cons_of_mem a member)
      have heavier : ¬ a.weight < c.weight := Int.not_lt.mpr (ahead a (by simp))
      rw [List.cons_append, lightest?_cons_of_some rest, if_neg heavier]

theorem eq_of_lightest?_of_index_eq {front behind : List Candidate} {c d : Candidate}
    (h : lightest? (front ++ d :: behind) = some c) (same : c.index = d.index)
    (ahead : ∀ x ∈ front, x.index < d.index) (after : ∀ y ∈ behind, d.index < y.index) :
    c = d ∧ (∀ x ∈ front, d.weight ≤ x.weight) ∧ ∀ y ∈ behind, d.weight < y.weight := by
  rcases exists_split_of_lightest? h with ⟨front', behind', split, heavy, heavier⟩
  rcases List.append_eq_append_iff.mp split with ⟨more, rfl, tail⟩ | ⟨more, rfl, tail⟩
  · cases more with
    | nil =>
        cases tail
        exact ⟨rfl, by simpa using heavy, heavier⟩
    | cons x more =>
        rcases List.cons.inj tail with ⟨_, rfl⟩
        have := after c (by simp)
        omega
  · cases more with
    | nil =>
        cases tail
        exact ⟨rfl, by simpa using heavy, heavier⟩
    | cons x more =>
        rcases List.cons.inj tail with ⟨rfl, _⟩
        have := ahead c (by simp)
        omega

theorem mem_candidates {depth index : Nat} {tokens : List Token} {c : Candidate}
    (member : c ∈ candidates depth index tokens) :
    ∃ front behind, tokens = front ++ c.token :: behind ∧ c.index = index + front.length := by
  induction tokens generalizing depth index with
  | nil => simp [candidates] at member
  | cons t rest ih =>
      -- Whatever the first token is, a candidate behind it stands one place further on.
      have further {d : Nat} (member : c ∈ candidates d (index + 1) rest) :
          ∃ front behind, t :: rest = front ++ c.token :: behind ∧
            c.index = index + front.length := by
        rcases ih member with ⟨front, behind, split, place⟩
        refine ⟨t :: front, behind, by rw [split]; rfl, ?_⟩
        rw [place, List.length_cons]
        omega
      unfold candidates at member
      split at member
      · exact further member
      · split at member
        · exact further member
        · split at member
          · exact further member
          · rcases List.mem_cons.mp member with rfl | later
            · exact ⟨[], rest, rfl, rfl⟩
            · exact further later

theorem index_of_mem_candidates {depth index : Nat} {tokens : List Token} {c : Candidate}
    (member : c ∈ candidates depth index tokens) :
    index ≤ c.index ∧ c.index < index + tokens.length := by
  rcases mem_candidates member with ⟨front, behind, rfl, place⟩
  rw [place, List.length_append, List.length_cons]
  omega

theorem exists_closer_of_closesLast {depth : Nat} {tokens : List Token}
    (h : closesLast depth tokens = true) :
    ∃ front closer, tokens = front ++ [closer] ∧ closer.isClose = true := by
  induction tokens generalizing depth with
  | nil => simp [closesLast] at h
  | cons t rest ih =>
      have further {d : Nat} (h : closesLast d rest = true) :
          ∃ front closer, t :: rest = front ++ [closer] ∧ closer.isClose = true := by
        rcases ih h with ⟨front, closer, rfl, close⟩
        exact ⟨t :: front, closer, rfl, close⟩
      unfold closesLast at h
      split at h
      · exact further h
      · split at h
        · next close =>
          cases depth with
          | zero => exact ⟨[], t, by rw [List.isEmpty_iff.mp h]; rfl, close⟩
          | succ depth => exact further h
        · exact further h

theorem eq_of_isWrapped {tokens : List Token} (wrapped : isWrapped tokens = true) :
    ∃ opener closer, tokens = opener :: interior tokens ++ [closer] ∧ opener.isOpen = true ∧
      closer.isClose = true := by
  cases tokens with
  | nil => simp [isWrapped] at wrapped
  | cons opener rest =>
      simp only [isWrapped, Bool.and_eq_true] at wrapped
      rcases wrapped with ⟨opened, closes⟩
      rcases exists_closer_of_closesLast closes with ⟨front, closer, rfl, close⟩
      exact ⟨opener, closer, by simp [interior], opened, close⟩

theorem strip_of_not_isWrapped (start : Nat) {tokens : List Token}
    (bare : isWrapped tokens = false) : strip start tokens = .ok ⟨start, tokens⟩ := by
  rw [strip]
  simp [bare]

theorem strip_of_isWrapped (start : Nat) {tokens : List Token} (wrapped : isWrapped tokens = true)
    (nonempty : interior tokens ≠ []) :
    strip start tokens = strip (start + 1) (interior tokens) := by
  rw [strip]
  simp [wrapped, nonempty]

theorem strip_of_interior_eq_nil (start : Nat) {tokens : List Token}
    (wrapped : isWrapped tokens = true) (empty : interior tokens = []) :
    strip start tokens = .error ⟨.missingOperand, tokens.getLast?.map Token.position⟩ := by
  rw [strip]
  simp [wrapped, empty]

inductive Encloses (inner : List Token) : (pairs : Nat) → List Token → Prop
  | bare : Encloses inner 0 inner
  | pair {pairs : Nat} {row : List Token} {opener closer : Token} (opened : opener.isOpen = true)
      (closed : closer.isClose = true) (within : Encloses inner pairs row) :
      Encloses inner (pairs + 1) (opener :: row ++ [closer])

/-- What stripping comes to: what is left has no outer parentheses, or the innermost of them have
nothing between them. -/
inductive Stripped (start : Nat) (tokens : List Token) : Except ParseError Span → Prop
  | bare {pairs : Nat} {span : List Token} (encloses : Encloses span pairs tokens)
      (bare : isWrapped span = false) (nonempty : tokens ≠ [] → span ≠ []) :
      Stripped start tokens (.ok ⟨start + pairs, span⟩)
  | hollow {pairs : Nat} {opener closer : Token} (opened : opener.isOpen = true)
      (closed : closer.isClose = true) (encloses : Encloses [opener, closer] pairs tokens) :
      Stripped start tokens (.error ⟨.missingOperand, some closer.position⟩)

theorem stripped_strip (start : Nat) (tokens : List Token) :
    Stripped start tokens (strip start tokens) := by
  induction start, tokens using strip.induct with
  | case1 start tokens wrapped empty =>
      rcases eq_of_isWrapped wrapped with ⟨opener, closer, split, opened, closed⟩
      have nothing : interior tokens = [] := List.isEmpty_iff.mp empty
      rw [nothing] at split
      rw [strip_of_interior_eq_nil start wrapped nothing, split]
      exact .hollow opened closed .bare
  | case2 start tokens wrapped nonempty ih =>
      rcases eq_of_isWrapped wrapped with ⟨opener, closer, split, opened, closed⟩
      have inside : interior tokens ≠ [] := by simpa using nonempty
      rw [strip_of_isWrapped start wrapped inside]
      generalize strip (start + 1) (interior tokens) = result at ih
      rw [split]
      cases ih with
      | bare encloses bare nonempty =>
          rw [Nat.add_right_comm, Nat.add_assoc]
          exact .bare (.pair opened closed encloses) bare fun _ => nonempty inside
      | hollow openedInner closedInner encloses =>
          exact .hollow openedInner closedInner (.pair opened closed encloses)
  | case3 start tokens bare =>
      have notWrapped : isWrapped tokens = false := by simpa using bare
      rw [strip_of_not_isWrapped start notWrapped]
      exact .bare .bare notWrapped id

theorem encloses_of_strip {start inside : Nat} {tokens span : List Token}
    (stripped : strip start tokens = .ok ⟨inside, span⟩) : ∃ pairs, Encloses span pairs tokens := by
  have result := stripped_strip start tokens
  rw [stripped] at result
  cases result with
  | bare encloses => exact ⟨_, encloses⟩

section Enclosed

variable {inner row : List Token} {pairs : Nat}

theorem Encloses.mem (encloses : Encloses inner pairs row) {t : Token} (member : t ∈ inner) :
    t ∈ row := by
  induction encloses with
  | bare => exact member
  | pair _ _ _ ih => simp [ih]

theorem Encloses.mem_or_isDelimiter (encloses : Encloses inner pairs row) {t : Token}
    (member : t ∈ row) : t ∈ inner ∨ t.isDelimiter = true := by
  induction encloses with
  | bare => exact .inl member
  | pair opened closed _ ih =>
      simp only [List.cons_append, List.mem_cons, List.mem_append, List.not_mem_nil, or_false]
        at member
      rcases member with rfl | within | rfl
      · exact .inr (Token.isDelimiter_of_isOpen opened)
      · exact ih within
      · exact .inr (Token.isDelimiter_of_isClose closed)

theorem Encloses.length_eq (encloses : Encloses inner pairs row) :
    row.length = inner.length + 2 * pairs := by
  induction encloses with
  | bare => rfl
  | pair _ _ _ ih =>
      simp only [List.cons_append, List.length_cons, List.length_append, ih, List.length_nil]
      omega

end Enclosed

theorem operatorRoot_eq_ok_iff {tokens : List Token} {c : Candidate} :
    operatorRoot tokens = .ok c ↔
      unpaired? tokens = none ∧ lightest? (candidates 0 0 tokens) = some c ∧
        c.token.kind = .operator ∧ c.index ≠ 0 ∧ c.index + 1 ≠ tokens.length := by
  unfold operatorRoot root
  cases unpaired? tokens with
  | some parenthesis => simp
  | none =>
      cases lightest? (candidates 0 0 tokens) with
      | none => simp
      | some best =>
          simp only [true_and, Option.some.injEq]
          by_cases operator : best.token.kind = .operator
          · by_cases edge : best.index = 0 ∨ best.index + 1 = tokens.length
            · simp only [operator, ne_eq, not_true_eq_false, if_false, edge, if_true]
              constructor
              · intro h
                cases h
              · rintro ⟨rfl, _, notFirst, notLast⟩
                exact absurd edge (by simp [notFirst, notLast])
            · simp only [operator, ne_eq, not_true_eq_false, if_false, edge, Except.ok.injEq]
              constructor
              · rintro rfl
                exact ⟨rfl, operator, not_or.mp edge⟩
              · rintro ⟨rfl, _⟩
                rfl
          · simp only [ne_eq, operator, not_false_eq_true, if_true]
            constructor
            · intro h
              cases h
            · rintro ⟨rfl, isOperator, _⟩
              exact absurd isOperator operator

end Span

end LineCalc
