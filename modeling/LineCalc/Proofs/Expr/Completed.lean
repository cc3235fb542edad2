import Mathlib.Data.List.TakeWhile
import LineCalc.Line
import LineCalc.Proofs.Basic
import LineCalc.Proofs.Expr.Shape

/-! What an evaluation has done when it stops.

The nodes of an expression are evaluated in a fixed order: those of the left side, those of the right
side, the operator. An assignment comes behind its right side alone, and nothing below it is evaluated
if its target is no variable. An evaluation completes the nodes in this order up to the first that
fails, and the cells that it has written are those of the assignments it has completed. -/

namespace LineCalc

namespace Expr

def side? : Expr → Side → Option Expr
  | binary _ left _, .left => some left
  | binary _ _ right, .right => some right
  | _, _ => none

def at? : Expr → List Side → Option Expr
  | e, [] => some e
  | e, side :: path => (e.side? side).bind fun part => part.at? path

def root : Expr → Node
  | literal value => .literal value
  | var name value => .var name value
  | binary op _ _ => .operator op
  | foreign kind => .foreign kind

def nodeAt? (e : Expr) (path : List Side) : Option Node := (e.at? path).map root

def IsTarget (e : Expr) (path : List Side) : Prop :=
  ∃ above name old right, path = above ++ [.left] ∧
    e.at? above = some (binary .assign (var name old) right)

/-- What an expression comes to by itself, be it ever so high. Nothing is written. -/
def comesTo : Expr → Except EvalError Value
  | literal value => .ok value
  | var _ value => .ok value
  | foreign kind => .error (.unknownNode kind)
  | binary .assign (var _ _) right => right.comesTo
  | binary .assign _ _ => .error .targetNotVariable
  | binary op left right => left.comesTo.bind fun a => right.comesTo.bind (op.apply a)

/-- The nodes that are evaluated, each behind those that it needs. -/
def order : Expr → List (List Side)
  | binary .assign (var _ _) right => right.order.map (.right :: ·) ++ [[]]
  | binary .assign _ _ => [[]]
  | binary _ left right => left.order.map (.left :: ·) ++ (right.order.map (.right :: ·) ++ [[]])
  | _ => [[]]

def errorOf : Except EvalError Value → Option EvalError
  | .error error => some error
  | .ok _ => none

/-- The error that arises at the root itself. There is none if a side has failed before. -/
def failure? : Expr → Option EvalError
  | foreign kind => some (.unknownNode kind)
  | binary .assign (var _ _) _ => none
  | binary .assign _ _ => some .targetNotVariable
  | binary op left right =>
    match left.comesTo, right.comesTo with
    | .ok a, .ok b => errorOf (op.apply a b)
    | _, _ => none
  | _ => none

def write? : Expr → Option Write
  | binary .assign (var name _) right => right.comesTo.toOption.map (⟨name, ·⟩)
  | _ => none

def writeAt? (e : Expr) (path : List Side) : Option Write := (e.at? path).bind write?

def calls : Expr → Nat
  | binary .assign _ _ => 2
  | _ => 1

/-- The calls that are open while the node at the end of a way down is worked on. -/
def framesAt : Expr → List Side → Nat
  | e, [] => e.calls
  | e, side :: path =>
    match e.side? side with
    | some part => e.calls + part.framesAt path
    | none => e.calls

def failureAt? (room : Nat) (e : Expr) (path : List Side) : Option EvalError :=
  -- What stands below a node that there is no room for has none either, and comes first in the order.
  if room < e.framesAt path then some .tooDeep else (e.at? path).bind failure?

def firstFailure? (room : Nat) (e : Expr) : Option EvalError :=
  e.order.findSome? (e.failureAt? room)

def completed (room : Nat) (e : Expr) : List (List Side) :=
  e.order.takeWhile fun path => (e.failureAt? room path).isNone

theorem at?_append {e part : Expr} {path : List Side} (found : e.at? path = some part)
    (below : List Side) : e.at? (path ++ below) = part.at? below := by
  induction path generalizing e with
  | nil =>
      cases found
      rfl
  | cons side path ih =>
      obtain ⟨next, down, rest⟩ := Option.bind_eq_some_iff.mp found
      rw [List.cons_append, at?, down]
      exact ih rest

section Steps

variable {op : Operator} {left right : Expr}

theorem order_assign_other (right : Expr) (target : left.isVariable = false) :
    (binary .assign left right).order = [[]] := by
  cases left with
  | var name value => simp [isVariable] at target
  | _ => rfl

theorem order_binary (compute : op ≠ .assign) (left right : Expr) :
    (binary op left right).order =
      left.order.map (.left :: ·) ++ (right.order.map (.right :: ·) ++ [[]]) := by
  cases op with
  | assign => contradiction
  | _ => rfl

theorem failure?_assign_other (right : Expr) (target : left.isVariable = false) :
    (binary .assign left right).failure? = some .targetNotVariable := by
  cases left with
  | var name value => simp [isVariable] at target
  | _ => rfl

theorem comesTo_binary (compute : op ≠ .assign) (left right : Expr) :
    (binary op left right).comesTo =
      left.comesTo.bind fun a => right.comesTo.bind (op.apply a) := by
  cases op with
  | assign => contradiction
  | _ => rfl

theorem failure?_binary (compute : op ≠ .assign) {a b : Value} (first : left.comesTo = .ok a)
    (second : right.comesTo = .ok b) :
    (binary op left right).failure? = errorOf (op.apply a b) := by
  cases op with
  | assign => contradiction
  | _ => simp only [failure?, first, second]

theorem write?_binary (compute : op ≠ .assign) (left right : Expr) :
    (binary op left right).write? = none := by
  cases op with
  | assign => contradiction
  | _ => rfl

theorem order_ne_nil (e : Expr) : e.order ≠ [] := by
  fun_cases order e <;> simp

theorem calls_binary (compute : op ≠ .assign) (left right : Expr) : (binary op left right).calls = 1 := by
  cases op with
  | assign => contradiction
  | _ => rfl

theorem one_le_calls (e : Expr) : 1 ≤ e.calls := by
  fun_cases calls e <;> omega

theorem one_le_framesAt (e : Expr) (path : List Side) : 1 ≤ e.framesAt path := by
  have own := e.one_le_calls
  fun_cases framesAt e path <;> omega

theorem failureAt?_cons {e part : Expr} {side : Side} (down : e.side? side = some part) (room : Nat)
    (path : List Side) : e.failureAt? room (side :: path) = part.failureAt? (room - e.calls) path := by
  have positive := part.one_le_framesAt path
  have same : room < e.calls + part.framesAt path ↔ room - e.calls < part.framesAt path := by omega
  simp only [failureAt?, framesAt, at?, down, Option.bind_some, same]

theorem failureAt?_left (compute : op ≠ .assign) (room : Nat) (left right : Expr) (path : List Side) :
    (binary op left right).failureAt? room (.left :: path) = left.failureAt? (room - 1) path := by
  rw [failureAt?_cons rfl, calls_binary compute]

theorem failureAt?_right (compute : op ≠ .assign) (room : Nat) (left right : Expr) (path : List Side) :
    (binary op left right).failureAt? room (.right :: path) = right.failureAt? (room - 1) path := by
  rw [failureAt?_cons rfl, calls_binary compute]

theorem failureAt?_assign (room : Nat) (left right : Expr) (path : List Side) :
    (binary .assign left right).failureAt? room (.right :: path) = right.failureAt? (room - 2) path :=
  failureAt?_cons rfl room path

theorem failureAt?_nil {e : Expr} {room : Nat} (enough : e.calls ≤ room) :
    e.failureAt? room [] = e.failure? := by
  rw [failureAt?, framesAt, if_neg (Nat.not_lt.mpr enough)]
  rfl

end Steps

section Steps

variable {op : Operator} {left : Expr} (room : Nat) (right : Expr)

theorem firstFailure?_zero (e : Expr) : e.firstFailure? 0 = some .tooDeep := by
  rcases List.exists_cons_of_ne_nil e.order_ne_nil with ⟨path, rest, order⟩
  have deep : 0 < e.framesAt path := e.one_le_framesAt path
  simp [firstFailure?, order, failureAt?, deep]

theorem completed_zero (e : Expr) : e.completed 0 = [] := by
  rcases List.exists_cons_of_ne_nil e.order_ne_nil with ⟨path, rest, order⟩
  have deep : 0 < e.framesAt path := e.one_le_framesAt path
  simp [completed, order, failureAt?, deep]

theorem pos_of_firstFailure? {e : Expr} {room : Nat} (free : e.firstFailure? room = none) : 0 < room := by
  apply Nat.pos_of_ne_zero
  rintro rfl
  rw [firstFailure?_zero] at free
  contradiction

/-- The operation itself has room for its calls once its sides have had it for theirs. -/
theorem firstFailure?_root {e : Expr} {sides : Option EvalError} (enough : sides = none → e.calls ≤ room) :
    sides.or (e.failureAt? room []) = sides.or e.failure? := by
  cases sides with
  | some error => rfl
  | none => rw [failureAt?_nil (enough rfl)]

theorem firstFailure?_assign (name : String) (old : Value) :
    (binary .assign (var name old) right).firstFailure? room = right.firstFailure? (room - 2) := by
  have whole : (binary .assign (var name old) right).firstFailure? room =
      (right.firstFailure? (room - 2)).or
        ((binary .assign (var name old) right).failureAt? room []) := by
    simp only [firstFailure?, order, List.findSome?_append, List.findSome?_map, Function.comp_def,
      failureAt?_assign, List.findSome?_singleton]
  rw [whole, firstFailure?_root, failure?, Option.or_none]
  intro free
  have positive := pos_of_firstFailure? free
  rw [calls]
  omega

theorem completed_assign (name : String) (old : Value) :
    (binary .assign (var name old) right).completed room =
      (right.completed (room - 2)).map (.right :: ·) ++
        if right.firstFailure? (room - 2) = none then [[]] else [] := by
  have whole : (binary .assign (var name old) right).completed room =
      (right.completed (room - 2)).map (.right :: ·) ++
        if right.firstFailure? (room - 2) = none then
          if (binary .assign (var name old) right).failureAt? room [] = none then [[]] else []
        else [] := by
    simp only [completed, firstFailure?, order, takeWhile_isNone_append, List.takeWhile_map,
      List.findSome?_map, Function.comp_def, failureAt?_assign, List.takeWhile_cons,
      List.takeWhile_nil, Option.isNone_iff_eq_none]
    rfl
  rw [whole]
  split
  · next free =>
    have positive := pos_of_firstFailure? free
    rw [failureAt?_nil (by rw [calls]; omega), failure?, if_pos rfl]
  · rfl

theorem firstFailure?_assign_other (target : left.isVariable = false) :
    (binary .assign left right).firstFailure? room =
      if room < 2 then some .tooDeep else some .targetNotVariable := by
  simp [firstFailure?, order_assign_other right target, failureAt?, framesAt, calls, at?,
    failure?_assign_other right target]

theorem completed_assign_other (target : left.isVariable = false) :
    (binary .assign left right).completed room = [] := by
  have failed : (binary .assign left right).failureAt? room [] ≠ none := by
    unfold failureAt?
    split
    · simp
    · simp [at?, failure?_assign_other right target]
  simp [completed, order_assign_other right target, failed]

variable (left) in
theorem firstFailure?_binary (compute : op ≠ .assign) :
    (binary op left right).firstFailure? room =
      (left.firstFailure? (room - 1)).or
        ((right.firstFailure? (room - 1)).or (binary op left right).failure?) := by
  have whole : (binary op left right).firstFailure? room =
      ((left.firstFailure? (room - 1)).or (right.firstFailure? (room - 1))).or
        ((binary op left right).failureAt? room []) := by
    simp only [firstFailure?, order_binary compute, List.findSome?_append, List.findSome?_map,
      Function.comp_def, failureAt?_left compute, failureAt?_right compute,
      List.findSome?_singleton, Option.or_assoc]
  rw [whole, firstFailure?_root, Option.or_assoc]
  intro free
  have positive := pos_of_firstFailure? (Option.or_eq_none_iff.mp free).1
  rw [calls_binary compute]
  omega

variable (left) in
theorem completed_binary (compute : op ≠ .assign) :
    (binary op left right).completed room =
      (left.completed (room - 1)).map (.left :: ·) ++
        if left.firstFailure? (room - 1) = none then
          (right.completed (room - 1)).map (.right :: ·) ++
            if right.firstFailure? (room - 1) = none then
              if (binary op left right).failure? = none then [[]] else []
            else []
        else [] := by
  have whole : (binary op left right).completed room =
      (left.completed (room - 1)).map (.left :: ·) ++
        if left.firstFailure? (room - 1) = none then
          (right.completed (room - 1)).map (.right :: ·) ++
            if right.firstFailure? (room - 1) = none then
              if (binary op left right).failureAt? room [] = none then [[]] else []
            else []
        else [] := by
    simp only [completed, firstFailure?, order_binary compute, takeWhile_isNone_append,
      List.takeWhile_map, List.findSome?_map, Function.comp_def, failureAt?_left compute,
      failureAt?_right compute, List.takeWhile_cons, List.takeWhile_nil, Option.isNone_iff_eq_none]
    rfl
  rw [whole]
  split
  · next free =>
    have positive := pos_of_firstFailure? free
    rw [failureAt?_nil (by rw [calls_binary compute]; omega)]
  · rfl

end Steps

/-- An evaluation ends at the first node that fails, with its error, or with a value if there is no
such node. -/
inductive Ends (e : Expr) : Option EvalError → Except EvalError Value → Prop
  | value {value : Value} (comes : e.comesTo = .ok value) : Ends e none (.ok value)
  | failed (error : EvalError) : Ends e (some error) (.error error)

theorem ends_leaf {e : Expr} {room : Nat} (alone : e.order = [[]]) (single : e.calls = 1)
    (ends : e.Ends e.failure? e.comesTo) :
    e.Ends (e.firstFailure? room) (grant room 1 e.comesTo) := by
  rw [firstFailure?, alone, List.findSome?_singleton]
  by_cases enough : 1 ≤ room
  · rw [failureAt?_nil (single ▸ enough), grant_of_le enough]
    exact ends
  · rw [grant_of_lt (by omega), failureAt?, framesAt, if_pos (by omega)]
    exact .failed .tooDeep

theorem ends_evaluateWithin (e : Expr) (room : Nat) :
    e.Ends (e.firstFailure? room) (e.evaluateWithin room).result := by
  induction e generalizing room with
  | literal value => exact ends_leaf rfl rfl (.value rfl)
  | var name value => exact ends_leaf rfl rfl (.value rfl)
  | foreign kind => exact ends_leaf rfl rfl (.failed (.unknownNode kind))
  | binary op left right ihLeft ihRight =>
      cases operation op left with
      | assign name old =>
          have source := ihRight (room - 2)
          rw [firstFailure?_assign, result_assign]
          generalize right.firstFailure? (room - 2) = failure at source
          generalize (right.evaluateWithin (room - 2)).result = result at source
          cases source with
          | value comes => exact .value comes
          | failed error => exact .failed error
      | refuse target =>
          rw [firstFailure?_assign_other room right target,
            evaluateWithin_assign_other room left right target]
          by_cases enough : 2 ≤ room
          · rw [grant_of_le enough, if_neg (by omega)]
            exact .failed .targetNotVariable
          · rw [grant_of_lt (by omega), if_pos (by omega)]
            exact .failed .tooDeep
      | compute compute =>
          have first := ihLeft (room - 1)
          have second := ihRight (room - 1)
          rw [firstFailure?_binary left room right compute, result_binary room left right compute]
          -- From here on only what the sides came to counts, in the order of evaluation.
          generalize left.firstFailure? (room - 1) = failureLeft at first
          generalize (left.evaluateWithin (room - 1)).result = resultLeft at first
          generalize right.firstFailure? (room - 1) = failureRight at second
          generalize (right.evaluateWithin (room - 1)).result = resultRight at second
          cases first with
          | failed error => exact .failed error
          | @value a comesLeft =>
              cases second with
              | failed error => exact .failed error
              | @value b comesRight =>
                  rw [failure?_binary compute comesLeft comesRight]
                  have comes := comesTo_binary compute left right
                  rw [comesLeft, comesRight] at comes
                  simp only [Except.bind, Option.none_or] at comes ⊢
                  cases applied : op.apply a b with
                  | error error => exact .failed error
                  | ok value => exact .value (comes.trans applied)

section Results

variable {e : Expr} {room : Nat}

theorem result_eq_ok_iff {value : Value} :
    (e.evaluateWithin room).result = .ok value ↔
      e.firstFailure? room = none ∧ e.comesTo = .ok value := by
  have ends := e.ends_evaluateWithin room
  generalize e.firstFailure? room = failure at ends
  generalize (e.evaluateWithin room).result = result at ends
  cases ends with
  | value comes => simp [comes]
  | failed error => simp

theorem result_eq_error_iff {error : EvalError} :
    (e.evaluateWithin room).result = .error error ↔ e.firstFailure? room = some error := by
  have ends := e.ends_evaluateWithin room
  generalize e.firstFailure? room = failure at ends
  generalize (e.evaluateWithin room).result = result at ends
  cases ends with
  | value comes => simp
  | failed error => simp

end Results

section Members

variable {room : Nat} {op : Operator} {left right : Expr} {path : List Side}

theorem left_mem_completed_iff (compute : op ≠ .assign) :
    .left :: path ∈ (binary op left right).completed room ↔ path ∈ left.completed (room - 1) := by
  simp [completed_binary left room right compute]

theorem right_mem_completed_iff (compute : op ≠ .assign) :
    .right :: path ∈ (binary op left right).completed room ↔
      left.firstFailure? (room - 1) = none ∧ path ∈ right.completed (room - 1) := by
  simp [completed_binary left room right compute]

theorem left_not_mem_completed_assign (name : String) (old : Value) :
    .left :: path ∉ (binary .assign (var name old) right).completed room := by
  simp [completed_assign]

theorem right_mem_completed_assign_iff (name : String) (old : Value) :
    .right :: path ∈ (binary .assign (var name old) right).completed room ↔
      path ∈ right.completed (room - 2) := by
  simp [completed_assign]

theorem nil_mem_completed_assign_iff (name : String) (old : Value) :
    [] ∈ (binary .assign (var name old) right).completed room ↔
      right.firstFailure? (room - 2) = none := by
  simp [completed_assign]

end Members

theorem pos_of_mem_completed {e : Expr} {room : Nat} {path : List Side} (member : path ∈ e.completed room) :
    0 < room := by
  apply Nat.pos_of_ne_zero
  rintro rfl
  rw [completed_zero] at member
  contradiction

theorem mem_completed_side {e part : Expr} {side : Side} {path : List Side} {room : Nat}
    (down : e.side? side = some part) (member : side :: path ∈ e.completed room) :
    path ∈ part.completed (room - e.calls) := by
  cases e with
  | binary op left right =>
      cases operation op left with
      | assign name old =>
          cases side with
          | left => exact absurd member (left_not_mem_completed_assign name old)
          | right =>
              cases down
              exact (right_mem_completed_assign_iff name old).mp member
      | refuse target => simp [completed_assign_other room right target] at member
      | compute compute =>
          rw [calls_binary compute]
          cases side with
          | left =>
              cases down
              exact (left_mem_completed_iff compute).mp member
          | right =>
              cases down
              exact ((right_mem_completed_iff compute).mp member).2
  | _ => cases down

theorem nil_mem_completed_at {e part : Expr} {path : List Side} {room : Nat}
    (found : e.at? path = some part) (member : path ∈ e.completed room) :
    ∃ less, e.framesAt path + less = room + part.calls ∧ [] ∈ part.completed less := by
  induction path generalizing e room with
  | nil =>
      cases found
      exact ⟨room, Nat.add_comm _ _, member⟩
  | cons side path ih =>
      obtain ⟨next, down, rest⟩ := Option.bind_eq_some_iff.mp found
      have within := mem_completed_side down member
      have positive := pos_of_mem_completed within
      obtain ⟨less, sum, alone⟩ := ih rest within
      refine ⟨less, ?_, alone⟩
      simp only [framesAt, down]
      omega

theorem result_of_mem_completed {e right : Expr} {path : List Side} {name : String} {old : Value}
    {room : Nat} (found : e.at? path = some (binary .assign (var name old) right))
    (member : path ∈ e.completed room) :
    ∃ value, (right.evaluateWithin (room - e.framesAt path)).result = .ok value := by
  obtain ⟨less, sum, alone⟩ := nil_mem_completed_at found member
  rw [nil_mem_completed_assign_iff] at alone
  have positive := pos_of_firstFailure? alone
  rw [calls] at sum
  have same : room - e.framesAt path = less - 2 := by omega
  rw [same]
  cases result : (right.evaluateWithin (less - 2)).result with
  | ok value => exact ⟨value, rfl⟩
  | error error =>
      rw [result_eq_error_iff, alone] at result
      contradiction

theorem not_mem_completed_of_target {e left right : Expr} {path : List Side} (room : Nat)
    (found : e.at? path = some (binary .assign left right)) (target : left.isVariable = false) :
    path ∉ e.completed room := by
  intro member
  obtain ⟨less, _, alone⟩ := nil_mem_completed_at found member
  simp [completed_assign_other less right target] at alone

theorem not_mem_order_of_target {e left right : Expr} {path : List Side}
    (found : e.at? path = some (binary .assign left right)) (target : left.isVariable = false)
    (side : Side) (below : List Side) : path ++ side :: below ∉ e.order := by
  induction path generalizing e with
  | nil =>
      cases found
      simp [order_assign_other right target]
  | cons step path ih =>
      obtain ⟨next, down, rest⟩ := Option.bind_eq_some_iff.mp found
      cases e with
      | binary op first second =>
          cases operation op first with
          | assign name old =>
              cases step with
              | left => simp [order]
              | right =>
                  cases down
                  simpa [order] using ih rest
          | refuse other => simp [order_assign_other second other]
          | compute compute =>
              cases step with
              | left =>
                  cases down
                  simpa [order_binary compute] using ih rest
              | right =>
                  cases down
                  simpa [order_binary compute] using ih rest
      | _ => cases down

/-- What is left of an expression when some of its nodes have been completed: the cells of the
assignments among them hold the values of the right sides, and all else is as it was. -/
structure Written (e : Expr) (done : List (List Side)) (after : Expr) : Prop where
  kept : ∀ path, ¬ e.IsTarget path → after.nodeAt? path = e.nodeAt? path
  cell : ∀ path name old right, e.at? path = some (binary .assign (var name old) right) →
    ∃ value, after.nodeAt? (path ++ [.left]) = some (.var name value) ∧
      (path ∈ done → right.comesTo = .ok value) ∧ (path ∉ done → value = old)

theorem IsTarget.below {side : Side} {e part : Expr} {path : List Side}
    (step : ∀ path, e.at? (side :: path) = part.at? path) (target : part.IsTarget path) :
    e.IsTarget (side :: path) := by
  obtain ⟨above, name, old, right, ends, found⟩ := target
  exact ⟨side :: above, name, old, right, by rw [ends]; rfl, by rw [step, found]⟩

namespace Written

variable {op : Operator} {left right first second : Expr}
  {done doneLeft doneRight : List (List Side)}

theorem same {e : Expr} (free : ∀ path name old right,
      e.at? path = some (Expr.binary .assign (var name old) right) → path ∉ done) :
    e.Written done e where
  kept _ _ := rfl
  cell path name old right found := by
    refine ⟨old, ?_, fun member => absurd member (free path name old right found), fun _ => rfl⟩
    rw [nodeAt?, at?_append found]
    rfl

theorem nothing (e : Expr) : e.Written [] e := same fun _ _ _ _ _ => List.not_mem_nil

theorem assign {name : String} {old value : Value} (written : right.Written doneRight second)
    (memberRight : ∀ path, .right :: path ∈ done ↔ path ∈ doneRight)
    (completed : [] ∈ done → right.comesTo = .ok value) (failed : [] ∉ done → value = old) :
    (Expr.binary .assign (var name old) right).Written done
      (Expr.binary .assign (var name value) second) where
  kept path free := by
    cases path with
    | nil => rfl
    | cons side path =>
        cases side with
        | right => exact written.kept path fun target => free (target.below fun _ => rfl)
        | left =>
            -- The only node on this side is the cell that is assigned to.
            cases path with
            | nil => exact absurd ⟨[], name, old, right, rfl, rfl⟩ free
            | cons side path => rfl
  cell path otherName otherOld source found := by
    cases path with
    | nil =>
        cases found
        exact ⟨value, rfl, completed, failed⟩
    | cons side path =>
        cases side with
        | left => cases path <;> cases found
        | right =>
            simp only [memberRight]
            exact written.cell path otherName otherOld source found

theorem binary (compute : op ≠ .assign) (writtenLeft : left.Written doneLeft first)
    (writtenRight : right.Written doneRight second)
    (memberLeft : ∀ path, .left :: path ∈ done ↔ path ∈ doneLeft)
    (memberRight : ∀ path, .right :: path ∈ done ↔ path ∈ doneRight) :
    (Expr.binary op left right).Written done (Expr.binary op first second) where
  kept path free := by
    cases path with
    | nil => rfl
    | cons side path =>
        cases side with
        | left => exact writtenLeft.kept path fun target => free (target.below fun _ => rfl)
        | right => exact writtenRight.kept path fun target => free (target.below fun _ => rfl)
  cell path name old source found := by
    cases path with
    | nil =>
        cases found
        contradiction
    | cons side path =>
        cases side with
        | left =>
            simp only [memberLeft]
            exact writtenLeft.cell path name old source found
        | right =>
            simp only [memberRight]
            exact writtenRight.cell path name old source found

end Written

theorem written_evaluateWithin (e : Expr) (room : Nat) :
    e.Written (e.completed room) (e.evaluateWithin room).tree := by
  induction e generalizing room with
  | binary op left right ihLeft ihRight =>
      cases operation op left with
      | assign name old =>
          rw [evaluateWithin_assign]
          cases result : (right.evaluateWithin (room - 2)).result with
          | error error =>
              refine (ihRight _).assign (fun _ => right_mem_completed_assign_iff name old) ?_ ?_
              · rw [nil_mem_completed_assign_iff, result_eq_error_iff.mp result]
                simp
              · exact fun _ => rfl
          | ok value =>
              have came := result_eq_ok_iff.mp result
              refine (ihRight _).assign (fun _ => right_mem_completed_assign_iff name old) ?_ ?_
              · exact fun _ => came.2
              · rw [nil_mem_completed_assign_iff]
                exact fun failed => absurd came.1 failed
      | refuse target =>
          rw [evaluateWithin_assign_other _ _ _ target, completed_assign_other room right target]
          exact .nothing _
      | compute compute =>
          rw [evaluateWithin_binary _ _ _ compute]
          cases result : (left.evaluateWithin (room - 1)).result with
          | error error =>
              -- The right side was not reached, so none of its nodes is completed.
              refine .binary compute (ihLeft _) (.nothing right)
                (fun _ => left_mem_completed_iff compute) fun path => ?_
              rw [right_mem_completed_iff compute, result_eq_error_iff.mp result]
              simp
          | ok a =>
              refine .binary compute (ihLeft _) (ihRight _)
                (fun _ => left_mem_completed_iff compute) fun path => ?_
              rw [right_mem_completed_iff compute, (result_eq_ok_iff.mp result).1]
              simp
  | _ => exact .same fun path name old right found => by cases path <;> cases found

theorem writes_evaluateWithin (e : Expr) (room : Nat) :
    (e.evaluateWithin room).writes = (e.completed room).filterMap e.writeAt? := by
  induction e generalizing room with
  | binary op left right ihLeft ihRight =>
      have down : (Expr.binary op left right).writeAt? ∘ (Side.left :: ·) = left.writeAt? := rfl
      have further : (Expr.binary op left right).writeAt? ∘ (Side.right :: ·) = right.writeAt? :=
        rfl
      have own : (Expr.binary op left right).writeAt? [] = (Expr.binary op left right).write? :=
        rfl
      cases operation op left with
      | assign name old =>
          rw [evaluateWithin_assign, completed_assign, List.filterMap_append, List.filterMap_map,
            further, ← ihRight]
          cases result : (right.evaluateWithin (room - 2)).result with
          | error error => simp [result_eq_error_iff.mp result]
          | ok value =>
              have came := result_eq_ok_iff.mp result
              simp [came.1, own, write?, came.2, Except.toOption]
      | refuse target =>
          rw [evaluateWithin_assign_other _ _ _ target, completed_assign_other room right target]
          rfl
      | compute compute =>
          rw [evaluateWithin_binary _ _ _ compute, completed_binary left room right compute,
            List.filterMap_append, List.filterMap_map, down, ← ihLeft]
          cases result : (left.evaluateWithin (room - 1)).result with
          | error error => simp [result_eq_error_iff.mp result]
          | ok a =>
              rw [if_pos (result_eq_ok_iff.mp result).1, List.filterMap_append,
                List.filterMap_map, further, ← ihRight]
              -- The operator itself may be completed, but it writes nothing.
              simp only [List.append_cancel_left_eq, List.self_eq_append_right,
                List.filterMap_eq_nil_iff, List.mem_ite_nil_right, List.mem_singleton]
              rintro path ⟨_, _, rfl⟩
              rw [own, write?_binary compute]
  | literal value | var name value | foreign kind =>
      symm
      apply List.filterMap_eq_nil_iff.mpr
      intro path member
      obtain rfl : path = [] := List.mem_singleton.mp (List.takeWhile_subset _ member)
      rfl

theorem at?_tree_of_target {e left right : Expr} {path : List Side} (room : Nat)
    (found : e.at? path = some (binary .assign left right)) (target : left.isVariable = false) :
    (e.evaluateWithin room).tree.at? path = some (binary .assign left right) := by
  induction path generalizing e room with
  | nil =>
      cases found
      rw [evaluateWithin_assign_other _ _ _ target]
      rfl
  | cons step path ih =>
      obtain ⟨next, down, rest⟩ := Option.bind_eq_some_iff.mp found
      cases e with
      | binary op first second =>
          cases operation op first with
          | assign name old =>
              rw [evaluateWithin_assign]
              cases step with
              | left =>
                  cases down
                  cases path <;> cases rest
              | right =>
                  cases down
                  cases (next.evaluateWithin (room - 2)).result <;> exact ih _ rest
          | refuse other =>
              rw [evaluateWithin_assign_other _ _ _ other]
              exact found
          | compute compute =>
              rw [evaluateWithin_binary _ _ _ compute]
              cases step with
              | left =>
                  cases down
                  cases (next.evaluateWithin (room - 1)).result <;> exact ih _ rest
              | right =>
                  cases down
                  cases (first.evaluateWithin (room - 1)).result with
                  | error error => exact found
                  | ok a => exact ih _ rest
      | _ => cases down

end Expr

def Event.write? : Event → Option Write
  | assigned write => some write
  | _ => none

theorem Line.filterMap_events_run {stack : Stack} {line : String} {tokens : List Token} {e : Expr}
    (scanned : Token.scan line = .ok tokens)
    (built : (Expr.ofTokens stack.inner tokens).result = .ok e) :
    (Line.run stack line).events.filterMap Event.write? = (e.evaluate stack.inner).writes := by
  have splits (row : List Split) : (row.map Event.split).filterMap Event.write? = [] := by
    simp [List.filterMap_map, Function.comp_def, Event.write?]
  have writes (row : List Write) : (row.map Event.assigned).filterMap Event.write? = row := by
    simp [List.filterMap_map, Function.comp_def, Event.write?]
  cases result : (e.evaluate stack.inner).result with
  | ok value =>
      simp [run, scanned, built, result, List.filterMap_cons, splits, writes, Event.write?]
  | error error =>
      simp [run, scanned, built, result, failedRun, LineError.failure, List.filterMap_cons, splits,
        writes, Event.write?]

/-- Whatever an evaluation comes to, it has completed the nodes before the first that fails, on the
left side first, then on the right side, then the operator. The cells that it has written are those
of the assignments among them, each with the value of the right side, and nothing else is changed.
The writes, as they are made and as they are logged, are these in this order. So an assignment whose
right side fails leaves its cell as it was, and one whose target is no variable fails before anything
below it is evaluated. -/
theorem Expr.evaluate_completed (stack : Stack) (e : Expr) :
    e.Ends (e.firstFailure? stack.nodeRoom) (e.evaluate stack).result ∧
    e.Written (e.completed stack.nodeRoom) (e.evaluate stack).tree ∧
    (e.evaluate stack).writes = (e.completed stack.nodeRoom).filterMap e.writeAt? ∧
    (∀ outer line tokens, outer.inner = stack → Token.scan line = .ok tokens →
      (ofTokens stack tokens).result = .ok e →
      (Line.run outer line).events.filterMap Event.write? =
        (e.completed stack.nodeRoom).filterMap e.writeAt?) ∧
    (∀ path name old right error, e.at? path = some (binary .assign (var name old) right) →
      (right.evaluateWithin (stack.nodeRoom - e.framesAt path)).result = .error error →
      (e.evaluate stack).tree.nodeAt? (path ++ [.left]) = some (.var name old)) ∧
    ∀ path left right, e.at? path = some (binary .assign left right) → left.isVariable = false →
      (binary .assign left right).failure? = some .targetNotVariable ∧
      path ∉ e.completed stack.nodeRoom ∧ (∀ side below, path ++ side :: below ∉ e.order) ∧
      (e.evaluate stack).tree.at? path = some (binary .assign left right) := by
  have written := e.written_evaluateWithin stack.nodeRoom
  have writes := e.writes_evaluateWithin stack.nodeRoom
  refine ⟨e.ends_evaluateWithin _, written, writes, ?_, ?_, ?_⟩
  · rintro outer line tokens rfl scanned built
    rw [← writes]
    exact Line.filterMap_events_run scanned built
  · intro path name old right error found failed
    have free : path ∉ e.completed stack.nodeRoom := by
      intro member
      obtain ⟨value, came⟩ := result_of_mem_completed found member
      rw [failed] at came
      contradiction
    obtain ⟨value, node, _, kept⟩ := written.cell path name old right found
    exact node.trans (by rw [kept free])
  · intro path left right found target
    exact ⟨failure?_assign_other right target, not_mem_completed_of_target _ found target,
      not_mem_order_of_target found target, at?_tree_of_target _ found target⟩

/-- In `(x<-2)+(y<-1/0)` the first cell is written and the second is not. In `(x<-1)<-2` nothing is. -/
theorem Expr.evaluate_completed_quotient :
    ((binary .add (binary .assign (var "x" .blank) (literal (.number (.int 2))))
      (binary .assign (var "y" .blank) (binary .div (literal (.number (.int 1)))
        (literal (.number (.int 0)))))).evaluate .empty).tree.nodeAt? [.right, .left] =
          some (.var "y" .blank) ∧
    (Line.run .empty "(x<-2)+(y<-1/0)").events.filterMap Event.write? =
      [⟨"x", .number (.int 2)⟩] ∧
    ((binary .assign (binary .assign (var "x" .blank) (literal (.number (.int 1))))
      (literal (.number (.int 2)))).evaluate .empty).tree.at? [] =
        some (binary .assign (binary .assign (var "x" .blank) (literal (.number (.int 1))))
          (literal (.number (.int 2)))) := by
  refine ⟨?_, ?_, ?_⟩
  · exact (evaluate_completed .empty _).2.2.2.2.1 [.right] "y" .blank _ .dividedByZero rfl (by rfl)
  · let tokens : List Token := [⟨"(", .delimiter, -1, 0⟩, ⟨"x", .identifier, 999, 1⟩,
      ⟨"<-", .operator, 0, 2⟩, ⟨"2", .literal, 1000, 4⟩, ⟨")", .delimiter, -1, 5⟩,
      ⟨"+", .operator, 1, 6⟩, ⟨"(", .delimiter, -1, 7⟩, ⟨"y", .identifier, 999, 8⟩,
      ⟨"<-", .operator, 0, 9⟩, ⟨"1", .literal, 1000, 11⟩, ⟨"/", .operator, 2, 12⟩,
      ⟨"0", .literal, 1000, 13⟩, ⟨")", .delimiter, -1, 14⟩]
    have scanned : Token.scan "(x<-2)+(y<-1/0)" = .ok tokens := by decide +kernel
    have built : (ofTokens Stack.empty.inner tokens).result = .ok (binary .add
        (binary .assign (var "x" .blank) (literal (.number (.int 2))))
        (binary .assign (var "y" .blank) (binary .div (literal (.number (.int 1)))
          (literal (.number (.int 0)))))) := by decide +kernel
    rw [(evaluate_completed Stack.empty.inner _).2.2.2.1 _ _ _ rfl scanned built]
    decide +kernel
  · exact ((evaluate_completed .empty _).2.2.2.2.2 [] _ _ rfl rfl).2.2.2

end LineCalc
