import LineCalc.Proofs.Expr.Balance

namespace LineCalc.Span

/-- A row is another one within so many pairs of parentheses, and those of each pair are partners. -/
inductive Wraps (inner : List Token) : (pairs : Nat) → List Token → Prop
  | bare : Wraps inner 0 inner
  | pair {pairs : Nat} {row : List Token} {opener closer : Token} (opened : opener.isOpen = true)
      (closed : closer.isClose = true) (partners : Balanced row) (within : Wraps inner pairs row) :
      Wraps inner (pairs + 1) (opener :: row ++ [closer])

variable {inner other row tokens : List Token} {pairs more : Nat}

theorem interior_pair (opener closer : Token) (row : List Token) :
    interior (opener :: row ++ [closer]) = row := by
  simp [interior]

theorem Wraps.isWrapped (wraps : Wraps inner (pairs + 1) row) : Span.isWrapped row = true := by
  cases wraps with
  | @pair _ row opener closer opened closed partners =>
      exact isWrapped_iff.mpr ⟨opener, row, closer, rfl, opened, closed, balanced_iff.mpr partners⟩

theorem Wraps.of_succ (wraps : Wraps inner (pairs + 1) row) : Wraps inner pairs (interior row) := by
  cases wraps with
  | pair opened closed partners within =>
      rw [interior_pair]
      exact within

theorem Wraps.succ (wraps : Wraps inner pairs (interior row)) (wrapped : Span.isWrapped row = true) :
    Wraps inner (pairs + 1) row := by
  obtain ⟨opener, within, closer, rfl, opened, closed, balanced⟩ := isWrapped_iff.mp wrapped
  rw [interior_pair] at wraps
  exact .pair opened closed (balanced_iff.mp balanced) wraps

theorem Wraps.encloses (wraps : Wraps inner pairs row) : Encloses inner pairs row := by
  induction wraps with
  | bare => exact .bare
  | pair opened closed _ _ ih => exact .pair opened closed ih

theorem Wraps.le_of_bare (wraps : Wraps inner pairs row) (bare : Span.isWrapped inner = false)
    (also : Wraps other more row) : more ≤ pairs := by
  induction wraps generalizing more with
  | bare =>
      cases more with
      | zero => exact Nat.le_refl 0
      | succ more =>
          rw [also.isWrapped] at bare
          contradiction
  | pair _ _ _ _ ih =>
      cases more with
      | zero => exact Nat.zero_le _
      | succ more =>
          have inside := also.of_succ
          rw [interior_pair] at inside
          exact Nat.succ_le_succ (ih inside)

theorem Wraps.balanced_iff (wraps : Wraps inner pairs row) : Balanced inner ↔ Balanced row := by
  induction wraps with
  | bare => exact Iff.rfl
  | pair opened closed partners within ih =>
      have whole := balanced_of_isWrapped (Wraps.pair opened closed partners within).isWrapped
      exact iff_of_true (ih.mpr partners) (Span.balanced_iff.mp whole)

/-- Stripping goes on until there are no outer parentheses, and refuses a row of which nothing is left. -/
theorem exists_wraps_strip (start : Nat) (tokens : List Token) :
    ∃ pairs inner, Wraps inner pairs tokens ∧ isWrapped inner = false ∧
      strip start tokens =
        if tokens ≠ [] ∧ inner = [] then .error ⟨.missingOperand, tokens[pairs]?.map Token.position⟩
        else .ok ⟨start + pairs, inner⟩ := by
  induction start, tokens using strip.induct with
  | case1 start tokens wrapped empty =>
      have nothing : interior tokens = [] := List.isEmpty_iff.mp empty
      have hollow : Wraps [] 0 (interior tokens) := nothing ▸ .bare
      refine ⟨1, [], hollow.succ wrapped, rfl, ?_⟩
      rw [strip_of_interior_eq_nil start wrapped nothing]
      obtain ⟨opener, within, closer, rfl, _⟩ := isWrapped_iff.mp wrapped
      rw [interior_pair] at nothing
      rw [nothing]
      rfl
  | case2 start tokens wrapped nonempty ih =>
      have filled : interior tokens ≠ [] := by simpa using nonempty
      obtain ⟨pairs, inner, wraps, last, stripped⟩ := ih
      refine ⟨pairs + 1, inner, wraps.succ wrapped, last, ?_⟩
      rw [strip_of_isWrapped start wrapped filled, stripped, Nat.add_assoc, Nat.add_comm 1]
      obtain ⟨opener, within, closer, rfl, _⟩ := isWrapped_iff.mp wrapped
      rw [interior_pair] at filled wraps ⊢
      by_cases empty : inner = []
      · -- The closing parenthesis of the innermost pair stands within this one, one place further on.
        have length := wraps.encloses.length_eq
        have positive := List.length_pos_iff.mpr filled
        rw [empty, List.length_nil] at length
        have place : (opener :: within ++ [closer])[pairs + 1]? = within[pairs]? := by
          rw [List.cons_append, List.getElem?_cons_succ, List.getElem?_append_left (by omega)]
        rw [if_pos ⟨filled, empty⟩, if_pos ⟨by simp, empty⟩, place]
      · rw [if_neg (fun both => empty both.2), if_neg (fun both => empty both.2)]
  | case3 start tokens bare =>
      have notWrapped : isWrapped tokens = false := by simpa using bare
      refine ⟨0, tokens, .bare, notWrapped, ?_⟩
      rw [strip_of_not_isWrapped start notWrapped, if_neg (fun both => both.1 both.2), Nat.add_zero]

theorem Encloses.eq_extract {start stop : Nat} (inside : stop ≤ row.length)
    (encloses : Encloses inner pairs (row.extract start stop)) :
    inner = row.extract (start + pairs) (stop - pairs) := by
  have length : inner.length + 2 * pairs = stop - start := by
    rw [← encloses.length_eq, List.length_take, List.length_drop]
    omega
  obtain ⟨front, behind, split, count⟩ := encloses.exists_append
  calc
    inner = ((front ++ inner ++ behind).drop pairs).take inner.length := by
      rw [← count, List.append_assoc, List.drop_left, List.take_left]
    _ = ((row.drop (start + pairs)).take (stop - start - pairs)).take inner.length := by
      rw [← split, List.drop_take, List.drop_drop]
    _ = row.extract (start + pairs) (stop - pairs) := by
      rw [List.take_take]
      congr 1
      omega

/-- A span counts as wrapped exactly if it is an opening parenthesis, a balanced row and a closing
parenthesis. Stripping takes off as many nested pairs of partners as there are, whether anything is left
between them or not, and what is left is balanced exactly if the span is. -/
theorem strip_partners (row : List Token) (start stop : Nat) (inside : stop ≤ row.length) :
    (isWrapped (row.extract start stop) = true ↔
      ∃ opener inner closer, row.extract start stop = opener :: inner ++ [closer] ∧
        opener.isOpen = true ∧ closer.isClose = true ∧ Balanced inner) ∧
    ∃ pairs, Wraps (row.extract (start + pairs) (stop - pairs)) pairs (row.extract start stop) ∧
      (∀ inner more, Wraps inner more (row.extract start stop) → more ≤ pairs) ∧
      strip start (row.extract start stop) =
        (if start < stop ∧ stop - pairs ≤ start + pairs then
          .error ⟨.missingOperand, row[start + pairs]?.map Token.position⟩
        else .ok ⟨start + pairs, row.extract (start + pairs) (stop - pairs)⟩) ∧
      (Balanced (row.extract (start + pairs) (stop - pairs)) ↔ Balanced (row.extract start stop)) := by
  refine ⟨by simp only [isWrapped_iff, balanced_iff], ?_⟩
  obtain ⟨pairs, inner, wraps, bare, stripped⟩ := exists_wraps_strip start (row.extract start stop)
  obtain rfl := wraps.encloses.eq_extract inside
  refine ⟨pairs, wraps, fun inner more also => wraps.le_of_bare bare also, ?_, wraps.balanced_iff⟩
  have empty {first last : Nat} (within : last ≤ row.length) :
      row.extract first last = [] ↔ last ≤ first := by
    rw [List.extract_eq_take_drop, List.take_eq_nil_iff, List.drop_eq_nil_iff]
    omega
  rw [stripped]
  simp only [ne_eq, empty inside, empty (Nat.le_trans (Nat.sub_le stop pairs) inside), Nat.not_le]
  by_cases nothing : start < stop ∧ stop - pairs ≤ start + pairs
  · have short : pairs < stop - start := by
      have length := wraps.encloses.length_eq
      simp only [List.length_take, List.length_drop] at length
      omega
    rw [if_pos nothing, if_pos nothing, List.getElem?_take_of_lt short, List.getElem?_drop]
  · rw [if_neg nothing, if_neg nothing]

/-- In `2*((1)+(3))` one pair is taken off what stands behind the operator, though the row within it
begins and ends with parentheses as well. -/
theorem strip_partners_sum :
    ∃ row, Token.scan "2*((1)+(3))" = .ok row ∧ 11 ≤ row.length ∧
      Wraps (row.extract 3 10) 1 (row.extract 2 11) ∧
      (∀ inner more, Wraps inner more (row.extract 2 11) → more ≤ 1) ∧
      strip 2 (row.extract 2 11) = .ok ⟨3, row.extract 3 10⟩ ∧
      (Balanced (row.extract 3 10) ↔ Balanced (row.extract 2 11)) := by
  let row : List Token := [⟨"2", .literal, 1000, 0⟩, ⟨"*", .operator, 2, 1⟩,
    ⟨"(", .delimiter, -1, 2⟩, ⟨"(", .delimiter, -1, 3⟩, ⟨"1", .literal, 1000, 4⟩,
    ⟨")", .delimiter, -1, 5⟩, ⟨"+", .operator, 1, 6⟩, ⟨"(", .delimiter, -1, 7⟩,
    ⟨"3", .literal, 1000, 8⟩, ⟨")", .delimiter, -1, 9⟩, ⟨")", .delimiter, -1, 10⟩]
  obtain ⟨_, pairs, wraps, most, stripped, same⟩ := strip_partners row 2 11 (by decide)
  have left : strip 2 (row.extract 2 11) = .ok ⟨3, row.extract 3 10⟩ := by decide +kernel
  have one : pairs = 1 := by
    rw [left] at stripped
    split at stripped
    · contradiction
    · have place := congrArg Span.start (Except.ok.inj stripped)
      simp only at place
      omega
  subst one
  exact ⟨row, by decide +kernel, by decide, wraps, most, left, same⟩

end LineCalc.Span
