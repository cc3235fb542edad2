import LineCalc.Proofs.Line.Outcome

namespace LineCalc

def Json.keys : Json → List String
  | object members => members.map Prod.fst
  | _ => []

theorem Expr.exists_toJsonWithin {e : Expr} {levels : Nat} (plain : e.isPlain = true)
    (low : e.height ≤ levels) : ∃ json, e.toJsonWithin levels = .ok json := by
  induction levels generalizing e with
  | zero => cases e <;> simp [height] at low
  | succ levels ih =>
      cases e with
      | foreign kind => simp [isPlain] at plain
      | literal value => exact ⟨_, rfl⟩
      | var name value => exact ⟨_, rfl⟩
      | binary op left right =>
          simp only [isPlain, Bool.and_eq_true] at plain
          simp only [height, Nat.add_le_add_iff_right, Nat.max_le] at low
          obtain ⟨first, shownLeft⟩ := ih plain.1 low.1
          obtain ⟨second, shownRight⟩ := ih plain.2 low.2
          simp only [toJsonWithin, shownLeft, shownRight]
          exact ⟨_, rfl⟩

namespace Report

variable {stack : Stack} {report : Report}

def presentKeys (r : Report) : List String :=
  ["line", "success"] ++ (if r.success then ["value", "display"] else []) ++
    (if r.error.isSome then ["error"] else []) ++ (if r.tokens.isEmpty then [] else ["tokens"]) ++
    if r.tree.isSome then ["tree"] else []

theorem exists_toJson (displays : report.success = true → ∃ text, report.display = .ok text)
    (trees : ∀ tree ∈ report.tree, ∃ json, tree.toJson stack.inner = .ok json) :
    ∃ json, report.toJson stack = .ok json ∧ json.keys = report.presentKeys := by
  have errors : (report.error.map fun e => ("error", e.toJson)).toList.map Prod.fst =
      if report.error.isSome then ["error"] else [] := by
    cases report.error <;> rfl
  have tokens : (if report.tokens = [] then []
      else [("tokens", Json.array (report.tokens.map Token.toJson))]).map Prod.fst =
        if report.tokens = [] then [] else ["tokens"] := by
    split <;> rfl
  cases success : report.success with
  | false =>
      cases built : report.tree with
      | none =>
          refine ⟨_, by simp only [toJson, success, built]; rfl, ?_⟩
          simp [Json.keys, presentKeys, success, built, errors, tokens]
      | some tree =>
          obtain ⟨json, shown⟩ := trees tree built
          refine ⟨_, by simp only [toJson, success, built, shown]; rfl, ?_⟩
          simp [Json.keys, presentKeys, success, built, errors, tokens]
  | true =>
      obtain ⟨text, displayed⟩ := displays success
      cases built : report.tree with
      | none =>
          refine ⟨_, by simp only [toJson, success, built, displayed]; rfl, ?_⟩
          simp [Json.keys, presentKeys, success, built, errors, tokens]
      | some tree =>
          obtain ⟨json, shown⟩ := trees tree built
          refine ⟨_, by simp only [toJson, success, built, displayed, shown]; rfl, ?_⟩
          simp [Json.keys, presentKeys, success, built, errors, tokens]

theorem toJson_of_display_error {fault : Fault} (success : report.success = true)
    (failed : report.display = .error fault) : report.toJson stack = .error fault := by
  simp only [toJson, success, failed]
  rfl

end Report

namespace Line

/-- The tokens and the tree of a report are those of the stage that its error tells of. The tree is
the one that was built, up to the values of cells that are assigned to. -/
def Staged (stack : Stack) (line : String) (report : Report) : Prop :=
  match report.error.map Failure.kind with
  | some .lex =>
    (∃ error, Token.scan line = .error error) ∧ report.tokens = [] ∧ report.tree = none
  | some .parse =>
    Token.scan line = .ok report.tokens ∧
      (∃ error, (Expr.ofTokens stack.inner report.tokens).result = .error error) ∧ report.tree = none
  | some .eval | none =>
    Token.scan line = .ok report.tokens ∧
      ∃ built tree, (Expr.ofTokens stack.inner report.tokens).result = .ok built ∧ report.tree = some tree ∧
        tree.clearTargets = built.clearTargets
  | _ => False

structure Keyed (stack : Stack) (line : String) (report : Report) (json : Json) : Prop where
  value : "value" ∈ json.keys ↔ report.success = true
  display : "display" ∈ json.keys ↔ report.success = true
  error : "error" ∈ json.keys ↔ report.success = false
  tokens : "tokens" ∈ json.keys ↔ ∃ tokens, Token.scan line = .ok tokens ∧ tokens ≠ []
  tree : "tree" ∈ json.keys ↔ ∃ e, Reads stack.inner line e

variable {stack : Stack} {line : String} {report : Report}

theorem evaluate_eq_ok_iff {value : Value} :
    Line.evaluate stack line = .ok value ↔
      ∃ report, (Line.run stack line).outcome = .ok report ∧ report.success = true ∧
        report.value = some value ∧ report.error = none := by
  have outcome := outcome_run stack line
  generalize (Line.run stack line).outcome = result at outcome
  cases outcome with
  | lexError scanned => simp [Line.evaluate, scanned]
  | parseError scanned built => simp [Line.evaluate, scanned, built]
  | evalError scanned built failed => simp [Line.evaluate, scanned, built, failed, Except.mapError]
  | value scanned built came => simp [Line.evaluate, scanned, built, came, Except.mapError]
  | tooLong scanned built => simp [Line.evaluate, scanned, built]

theorem evaluate_refused_iff {failure : Failure} :
    (∃ error, Line.evaluate stack line = .error error ∧ error.failure = .ok failure) ↔
      ∃ report, (Line.run stack line).outcome = .ok report ∧ report.success = false ∧
        report.value = none ∧ report.error = some failure := by
  have outcome := outcome_run stack line
  generalize (Line.run stack line).outcome = result at outcome
  cases outcome with
  | lexError scanned => simp [Line.evaluate, scanned, LineError.failure]
  | parseError scanned built =>
      simp [Line.evaluate, scanned, built, LineError.ofBuildError, LineError.failure]
  | evalError scanned built failed =>
      simp [Line.evaluate, scanned, built, failed, Except.mapError, LineError.failure]
  | value scanned built came => simp [Line.evaluate, scanned, built, came, Except.mapError]
  | tooLong scanned built =>
      simp [Line.evaluate, scanned, built, LineError.ofBuildError, LineError.failure]

theorem staged_of_run (ran : (Line.run stack line).outcome = .ok report) : Staged stack line report := by
  have outcome := outcome_run stack line
  rw [ran] at outcome
  cases outcome with
  | lexError scanned => exact ⟨⟨_, scanned⟩, rfl, rfl⟩
  | parseError scanned built => exact ⟨scanned, ⟨_, built⟩, rfl⟩
  | evalError scanned built =>
      exact ⟨scanned, _, _, built, rfl, Expr.clearTargets_tree _ stack.inner.nodeRoom⟩
  | value scanned built =>
      exact ⟨scanned, _, _, built, rfl, Expr.clearTargets_tree _ stack.inner.nodeRoom⟩

theorem exists_keyed_of_run (ran : (Line.run stack line).outcome = .ok report) {other : Stack}
    (low : ∀ tree ∈ report.tree, tree.height ≤ other.inner.leafRoom)
    (short : ∀ value ∈ report.value, ¬ value.IsLong) :
    ∃ json, report.toJson other = .ok json ∧ Keyed stack line report json := by
  have trees : ∀ tree ∈ report.tree, ∃ json, tree.toJson other.inner = .ok json := by
    intro tree built
    exact Expr.exists_toJsonWithin (isPlain_of_run ran built) (low tree built)
  have displays : report.success = true → ∃ text, report.display = .ok text := by
    intro _
    unfold Report.display
    cases present : report.value with
    | none => exact ⟨_, rfl⟩
    | some value => exact Value.exists_text_of_not_isLong (short value present)
  obtain ⟨json, shown, keys⟩ := Report.exists_toJson displays trees
  refine ⟨json, shown, ?_⟩
  have outcome := outcome_run stack line
  rw [ran] at outcome
  cases outcome with
  | lexError scanned =>
      constructor <;> simp [keys, Report.presentKeys, Reads, scanned]
  | parseError scanned built =>
      constructor <;> simp [keys, Report.presentKeys, Reads, scanned, built]
  | evalError scanned built =>
      constructor <;> simp [keys, Report.presentKeys, Reads, scanned, built]
  | value scanned built =>
      constructor <;> simp [keys, Report.presentKeys, Reads, scanned, built]

theorem toJson_of_isLong (ran : (Line.run stack line).outcome = .ok report) {value : Value}
    (present : report.value = some value) (long : value.IsLong) (other : Stack) :
    report.toJson other = .error .integerTooLong := by
  have outcome := outcome_run stack line
  rw [ran] at outcome
  cases outcome with
  | lexError | parseError | evalError => contradiction
  | value =>
      cases present
      exact Report.toJson_of_display_error rfl (Value.text_of_isLong long)

/-- A line has a value exactly if its report is a success with that value, something is wrong with it
exactly if its report shows that, and a fault takes both away. The report holds the tokens and the
tree of the stage that it got to, and as JSON it has the members for these. It has no JSON exactly if
its value is too long to be displayed. -/
theorem run_agrees (stack : Stack) (line : String) :
    (∀ value, Line.evaluate stack line = .ok value ↔
      ∃ report, (Line.run stack line).outcome = .ok report ∧ report.success = true ∧
        report.value = some value ∧ report.error = none) ∧
    (∀ failure, (∃ error, Line.evaluate stack line = .error error ∧ error.failure = .ok failure) ↔
      ∃ report, (Line.run stack line).outcome = .ok report ∧ report.success = false ∧
        report.value = none ∧ report.error = some failure) ∧
    (∀ fault, Line.evaluate stack line = .error (.fault fault) ↔ (Line.run stack line).outcome = .error fault) ∧
    ∀ report, (Line.run stack line).outcome = .ok report →
      Staged stack line report ∧
      ((∀ value ∈ report.value, ¬ value.IsLong) →
        ∃ json, report.toJson stack = .ok json ∧ Keyed stack line report json) ∧
      ((∃ value ∈ report.value, value.IsLong) → report.toJson stack = .error .integerTooLong) := by
  refine ⟨fun _ => evaluate_eq_ok_iff, fun _ => evaluate_refused_iff,
    fun _ => evaluate_eq_fault_iff, ?_⟩
  intro report ran
  have low : ∀ tree ∈ report.tree, tree.height ≤ stack.inner.leafRoom := fun tree built =>
    (height_le_of_run ran built).trans ((spanRoom_le_leafRoom _).trans (leafRoom_inner_le _))
  refine ⟨staged_of_run ran, exists_keyed_of_run ran low, ?_⟩
  intro found
  obtain ⟨value, present, long⟩ := found
  exact toJson_of_isLong ran present long stack

/-- The division of `(x<-1)/0` fails behind an assignment: the report holds the tree with `x` written,
and its JSON has no value but an error. -/
theorem run_agrees_division :
    ∃ report json, (Line.run .empty "(x<-1)/0").outcome = .ok report ∧
      report.error = some EvalError.dividedByZero.failure ∧ Staged .empty "(x<-1)/0" report ∧
      report.toJson .empty = .ok json ∧ "value" ∉ json.keys ∧ "error" ∈ json.keys ∧
      "tokens" ∈ json.keys ∧ "tree" ∈ json.keys := by
  let tokens : List Token := [⟨"(", .delimiter, -1, 0⟩, ⟨"x", .identifier, 999, 1⟩,
    ⟨"<-", .operator, 0, 2⟩, ⟨"1", .literal, 1000, 4⟩, ⟨")", .delimiter, -1, 5⟩,
    ⟨"/", .operator, 2, 6⟩, ⟨"0", .literal, 1000, 7⟩]
  let report : Report := ⟨"(x<-1)/0", false, none, some EvalError.dividedByZero.failure, tokens,
    some (.binary .div (.binary .assign (.var "x" (.number (.int 1)))
      (.literal (.number (.int 1)))) (.literal (.number (.int 0))))⟩
  have ran : (Line.run .empty "(x<-1)/0").outcome = .ok report := by decide +kernel
  have agrees := (run_agrees .empty "(x<-1)/0").2.2.2 report ran
  obtain ⟨json, shown, keyed⟩ := agrees.2.1 (by simp [report])
  have scanned : Token.scan "(x<-1)/0" = .ok tokens := by decide +kernel
  have reads : ∃ e, Reads Stack.empty.inner "(x<-1)/0" e :=
    ⟨.binary .div (.binary .assign (.var "x" .blank) (.literal (.number (.int 1))))
      (.literal (.number (.int 0))), tokens, scanned, by decide +kernel⟩
  refine ⟨report, json, ran, rfl, agrees.1, shown, ?_, keyed.error.mpr rfl, ?_, keyed.tree.mpr reads⟩
  · intro member
    exact absurd (keyed.value.mp member) (by simp [report])
  · exact keyed.tokens.mpr ⟨tokens, scanned, by simp [tokens]⟩

/-- The value of `10^4300` has one digit too many: the line has a report of success, which has no
JSON. -/
theorem toJson_power :
    ∃ report, (Line.run .empty "10^4300").outcome = .ok report ∧ report.success = true ∧
      report.toJson .empty = .error .integerTooLong := by
  have reads : Reads Stack.empty.inner "10^4300" (.binary .pow (.literal (.number (.int 10)))
      (.literal (.number (.int 4300)))) :=
    ⟨[⟨"10", .literal, 1000, 0⟩, ⟨"^", .operator, 3, 2⟩, ⟨"4300", .literal, 1000, 3⟩],
      by decide +kernel, by decide +kernel⟩
  have evaluated : Line.evaluate .empty "10^4300" = .ok (.number (.int (Number.intPow 10 4300))) := by
    rw [reads.evaluate_eq]
    rfl
  have long : (Value.number (.int (Number.intPow 10 4300))).IsLong := by
    have size (n : Nat) : (Int.pow 10 n).natAbs = Nat.pow 10 n := Int.natAbs_pow 10 n
    rw [Value.isLong_int_iff, Number.intPow_eq, size, digitLimit]
  obtain ⟨report, ran, success, present, _⟩ := evaluate_eq_ok_iff.mp evaluated
  exact ⟨report, ran, success, toJson_of_isLong ran present long .empty⟩

end Line

end LineCalc
