import LineCalc.Proofs.Expr.Levels

namespace LineCalc

open LineCalc.Span

theorem Span.exists_sides_of_operatorRoot {span : List Token} {c : Candidate}
    (root : operatorRoot span = .ok c) :
    ∃ left right, left ≠ [] ∧ right ≠ [] ∧ span = left ++ c.token :: right ∧
      c.index = left.length := by
  rcases operatorRoot_eq_ok_iff.mp root with ⟨_, lightest, _, notFirst, notLast⟩
  rcases mem_candidates (mem_of_lightest? lightest) with ⟨left, right, rfl, place⟩
  rw [Nat.zero_add] at place
  refine ⟨left, right, ?_, ?_, rfl, place⟩
  · rintro rfl
    exact notFirst place
  · rintro rfl
    rw [place, List.length_append] at notLast
    exact notLast rfl

theorem Span.Encloses.exists_append {inner row : List Token} {pairs : Nat}
    (encloses : Encloses inner pairs row) :
    ∃ front behind, row = front ++ inner ++ behind ∧ front.length = pairs := by
  induction encloses with
  | bare => exact ⟨[], [], by simp, rfl⟩
  | @pair pairs row opener closer _ _ _ ih =>
      rcases ih with ⟨front, behind, rfl, length⟩
      exact ⟨opener :: front, behind ++ [closer], by simp, by simp [length]⟩

namespace Expr

inductive Planned (start : Nat) (tokens : List Token) : Plan → Prop
  | nothing (empty : tokens = []) :
      Planned start tokens (.done (.error (.parse ⟨.missingOperand, none⟩)))
  | hollow {pairs : Nat} {opener closer : Token} (opened : opener.isOpen = true)
      (closed : closer.isClose = true) (encloses : Encloses [opener, closer] pairs tokens) :
      Planned start tokens (.done (.error (.parse ⟨.missingOperand, some closer.position⟩)))
  | leaf {pairs : Nat} {t : Token} (encloses : Encloses [t] pairs tokens) :
      Planned start tokens (.done (ofToken t))
  | refused {pairs : Nat} {span : List Token} {error : ParseError}
      (encloses : Encloses span pairs tokens) (bare : isWrapped span = false)
      (long : 2 ≤ span.length) (root : operatorRoot span = .error error) :
      Planned start tokens (.done (.error (.parse error)))
  | split {pairs : Nat} {left right : List Token} {sign : Token} {weight : Int}
      (encloses : Encloses (left ++ sign :: right) pairs tokens)
      (bare : isWrapped (left ++ sign :: right) = false)
      (root : operatorRoot (left ++ sign :: right) = .ok ⟨left.length, sign, weight⟩)
      (nonemptyLeft : left ≠ []) (nonemptyRight : right ≠ []) :
      Planned start tokens
        (.split ⟨start + pairs, start + pairs + (left ++ sign :: right).length,
            start + pairs + left.length, sign.text⟩
          ⟨start + pairs, left⟩ ⟨start + pairs + left.length + 1, right⟩)

theorem planned_plan (start : Nat) (tokens : List Token) :
    Planned start tokens (plan start tokens) := by
  have stripped := stripped_strip start tokens
  unfold plan
  generalize strip start tokens = result at stripped
  cases stripped with
  | hollow opened closed encloses => exact .hollow opened closed encloses
  | @bare pairs span encloses bare nonempty =>
      match span with
      | [] =>
          refine .nothing ?_
          by_contra filled
          exact nonempty filled rfl
      | [t] => exact .leaf encloses
      | a :: b :: rest =>
          have long : 2 ≤ (a :: b :: rest).length := by simp
          cases root : operatorRoot (a :: b :: rest) with
          | error error =>
              simp only [root]
              exact .refused encloses bare long root
          | ok c =>
              rcases c with ⟨index, sign, weight⟩
              simp only [root]
              rcases exists_sides_of_operatorRoot root with
                ⟨left, right, nonemptyLeft, nonemptyRight, sides, rfl⟩
              simp only at sides
              rw [sides] at encloses bare root ⊢
              have takeLeft : (left ++ sign :: right).take left.length = left := by simp
              have dropLeft : (left ++ sign :: right).drop (left.length + 1) = right := by simp
              rw [takeLeft, dropLeft]
              exact .split encloses bare root nonemptyLeft nonemptyRight

theorem mem_of_plan {start : Nat} {tokens : List Token} {cut : Split} {left right : Span}
    (planned : plan start tokens = .split cut left right) :
    (∀ t ∈ left.tokens, t ∈ tokens) ∧ ∀ t ∈ right.tokens, t ∈ tokens := by
  have cases := planned_plan start tokens
  rw [planned] at cases
  cases cases with
  | split encloses =>
      constructor
      · intro t member
        exact encloses.mem (List.mem_append_left _ member)
      · intro t member
        exact encloses.mem (List.mem_append_right _ (List.mem_cons_of_mem _ member))

inductive Reaches (row : List Token) : Span → Prop
  | whole : Reaches row ⟨0, row⟩
  | left {span left right : Span} {cut : Split} (reached : Reaches row span)
      (planned : plan span.start span.tokens = .split cut left right) : Reaches row left
  | right {span left right : Span} {cut : Split} (reached : Reaches row span)
      (planned : plan span.start span.tokens = .split cut left right) : Reaches row right

/-- A span is a part of a row, at the place that it tells, and empty only with the row. -/
structure PartOf (row : List Token) (span : Span) : Prop where
  within : ∃ front behind, row = front ++ span.tokens ++ behind ∧ front.length = span.start
  nonempty : row ≠ [] → span.tokens ≠ []

variable {row : List Token} {span left right : Span} {cut : Split}

theorem PartOf.exists_inner (part : PartOf row span) {inner : List Token} {pairs : Nat}
    (encloses : Encloses inner pairs span.tokens) :
    ∃ front behind, row = front ++ inner ++ behind ∧ front.length = span.start + pairs := by
  rcases part.within with ⟨front, behind, rfl, place⟩
  rcases encloses.exists_append with ⟨openers, closers, same, count⟩
  exact ⟨front ++ openers, closers ++ behind, by simp [same], by simp [place, count]⟩

theorem PartOf.sides (part : PartOf row span)
    (planned : plan span.start span.tokens = .split cut left right) :
    PartOf row left ∧ PartOf row right := by
  have cases := planned_plan span.start span.tokens
  rw [planned] at cases
  cases cases with
  | @split pairs left right sign _ encloses _ _ nonemptyLeft nonemptyRight =>
      rcases part.exists_inner encloses with ⟨front, behind, rfl, place⟩
      refine ⟨⟨⟨front, sign :: right ++ behind, by simp, place⟩, fun _ => nonemptyLeft⟩,
        ⟨⟨front ++ left ++ [sign], behind, by simp, ?_⟩, fun _ => nonemptyRight⟩⟩
      simp [place, Nat.add_assoc]

theorem Reaches.partOf (reached : Reaches row span) : PartOf row span := by
  induction reached with
  | whole => exact ⟨⟨[], [], by simp, rfl⟩, id⟩
  | left _ planned ih => exact (ih.sides planned).1
  | right _ planned ih => exact (ih.sides planned).2

inductive Origin (row : List Token) (first : Option Int) : BuildError → Prop
  | tooDeep : Origin row first (.parse ⟨.tooDeep, first⟩)
  | span {span : Span} {error : BuildError} (reached : Reaches row span)
      (planned : plan span.start span.tokens = .done (.error error)) : Origin row first error
  | symbol {span left right : Span} {cut : Split} (reached : Reaches row span)
      (planned : plan span.start span.tokens = .split cut left right)
      (unknown : Operator.ofSymbol? cut.symbol = none) :
      Origin row first (.fault (.notAnOperator (Text.quoted cut.symbol)))

theorem origin_of_error {first : Option Int} {levels : Nat} {error : BuildError}
    (reached : Reaches row span)
    (failed : (build first levels span.start span.tokens).result = .error error) :
    Origin row first error := by
  induction levels generalizing span with
  | zero =>
      cases failed
      exact .tooDeep
  | succ levels ih =>
      rw [build_succ] at failed
      cases planned : plan span.start span.tokens with
      | done result =>
          rw [planned] at failed
          exact .span reached (planned.trans (congrArg Plan.done failed))
      | split cut left right =>
          rw [planned, Plan.carryOut, Building.join] at failed
          cases builtLeft : (build first levels left.start left.tokens).result with
          | error other =>
              simp only [builtLeft] at failed
              cases failed
              exact ih (.left reached planned) builtLeft
          | ok a =>
              simp only [builtLeft] at failed
              cases builtRight : (build first levels right.start right.tokens).result with
              | error other =>
                  simp only [builtRight, Except.bind] at failed
                  cases failed
                  exact ih (.right reached planned) builtRight
              | ok b =>
                  simp only [builtRight, Except.bind, join] at failed
                  split at failed
                  · contradiction
                  · next unknown =>
                    cases failed
                    exact .symbol reached planned unknown

end Expr

end LineCalc
