import LineCalc.Proofs.Expr.Shape
import LineCalc.Proofs.Line.Reading

namespace LineCalc

theorem Phrase.isPlain_expr (p : Phrase) : p.expr.isPlain = true := by
  induction p with
  | atom t =>
      unfold expr
      split <;> rfl
  | group opener inner closer ih => exact ih
  | chain left op sign right ihLeft ihRight => simp [expr, Expr.isPlain, ihLeft, ihRight]

namespace Line

variable {stack : Stack} {line : String} {e : Expr} {report : Report}

inductive Outcome (stack : Stack) (line : String) : Except Fault Report → Prop
  | lexError {error : LexError} (scanned : Token.scan line = .error error) :
      Outcome stack line (.ok ⟨line, false, none, some error.failure, [], none⟩)
  | parseError {tokens : List Token} {error : ParseError} (scanned : Token.scan line = .ok tokens)
      (built : (Expr.ofTokens stack.inner tokens).result = .error (.parse error)) :
      Outcome stack line (.ok ⟨line, false, none, some error.failure, tokens, none⟩)
  | evalError {tokens : List Token} {e : Expr} {error : EvalError}
      (scanned : Token.scan line = .ok tokens)
      (built : (Expr.ofTokens stack.inner tokens).result = .ok e)
      (failed : (e.evaluate stack.inner).result = .error error) :
      Outcome stack line
        (.ok ⟨line, false, none, some error.failure, tokens, some (e.evaluate stack.inner).tree⟩)
  | value {tokens : List Token} {e : Expr} {value : Value} (scanned : Token.scan line = .ok tokens)
      (built : (Expr.ofTokens stack.inner tokens).result = .ok e)
      (came : (e.evaluate stack.inner).result = .ok value) :
      Outcome stack line
        (.ok ⟨line, true, some value, none, tokens, some (e.evaluate stack.inner).tree⟩)
  | tooLong {tokens : List Token} {t : Token} (scanned : Token.scan line = .ok tokens)
      (built : (Expr.ofTokens stack.inner tokens).result =
        .error (.fault (.literalTooLong t.text.length)))
      (member : t ∈ tokens) (long : ¬ t.Short) :
      Outcome stack line (.error (.literalTooLong t.text.length))

theorem outcome_run (stack : Stack) (line : String) : Outcome stack line (Line.run stack line).outcome := by
  cases scanned : Token.scan line with
  | error error =>
      simp only [Line.run, scanned]
      exact .lexError scanned
  | ok tokens =>
      have built : Phrase.Built tokens (Expr.ofTokens stack.inner tokens).result :=
        Phrase.built_build _ _ _ (Token.wellFormed_of_scan scanned)
      generalize result : (Expr.ofTokens stack.inner tokens).result = building at built
      simp only [Line.run, scanned, result]
      cases built with
      | refused error => exact .parseError scanned result
      | tooLong member long => exact .tooLong scanned result member long
      | tree =>
          simp only
          split
          · next failed => exact .evalError scanned result failed
          · next came => exact .value scanned result came

theorem render_of_run (ran : (Line.run stack line).outcome = .ok report) (lead : String) :
    report.render lead =
      match Line.evaluate stack line with
      | .ok value => value.text.map (lead ++ ·)
      | .error error => error.failure.map Failure.text := by
  have outcome := outcome_run stack line
  rw [ran] at outcome
  cases outcome with
  | lexError scanned =>
      simp only [Line.evaluate, scanned]
      rfl
  | parseError scanned built =>
      simp only [Line.evaluate, scanned, built]
      rfl
  | evalError scanned built failed =>
      simp only [Line.evaluate, scanned, built, failed]
      rfl
  | value scanned built came =>
      simp only [Line.evaluate, scanned, built, came]
      rfl

theorem evaluate_eq_fault_iff {fault : Fault} :
    Line.evaluate stack line = .error (.fault fault) ↔ (Line.run stack line).outcome = .error fault := by
  have outcome := outcome_run stack line
  generalize (Line.run stack line).outcome = result at outcome
  cases outcome with
  | lexError scanned => simp [Line.evaluate, scanned]
  | parseError scanned built => simp [Line.evaluate, scanned, built, LineError.ofBuildError]
  | evalError scanned built failed => simp [Line.evaluate, scanned, built, failed, Except.mapError]
  | value scanned built came => simp [Line.evaluate, scanned, built, came, Except.mapError]
  | tooLong scanned built => simp [Line.evaluate, scanned, built, LineError.ofBuildError]

theorem exists_reads_of_run (ran : (Line.run stack line).outcome = .ok report) {tree : Expr}
    (built : report.tree = some tree) :
    ∃ e, Reads stack.inner line e ∧ tree = (e.evaluate stack.inner).tree := by
  have outcome := outcome_run stack line
  rw [ran] at outcome
  cases outcome with
  | lexError | parseError => contradiction
  | evalError scanned result | value scanned result =>
      exact ⟨_, ⟨_, scanned, result⟩, (Option.some.inj built).symm⟩

theorem Reads.exists_report (reads : Reads stack.inner line e) :
    ∃ report, (Line.run stack line).outcome = .ok report ∧
      report.tree = some (e.evaluate stack.inner).tree := by
  rcases reads with ⟨tokens, scanned, built⟩
  simp only [Line.run, scanned, built]
  split
  · exact ⟨_, rfl, rfl⟩
  · exact ⟨_, rfl, rfl⟩

/-- What can be built where a call stands can be written out there, and by what is called there. -/
theorem spanRoom_le_leafRoom (stack : Stack) : stack.spanRoom ≤ stack.inner.leafRoom := by
  have le := stack.leaf_le_span
  simp only [Stack.spanRoom, Stack.leafRoom, Stack.inner]
  omega

theorem leafRoom_inner_le (stack : Stack) : stack.inner.leafRoom ≤ stack.leafRoom := by
  simp only [Stack.leafRoom, Stack.inner]
  omega

section Trees

variable {tree : Expr} (ran : (Line.run stack line).outcome = .ok report)
  (built : report.tree = some tree)
include ran built

theorem isPlain_of_run : tree.isPlain = true := by
  obtain ⟨e, reads, rfl⟩ := exists_reads_of_run ran built
  obtain ⟨p, _, rfl, _⟩ := reads_iff.mp reads
  rw [Expr.isPlain_evaluate_tree, p.isPlain_expr]

theorem height_le_of_run : tree.height ≤ stack.inner.spanRoom := by
  obtain ⟨e, reads, rfl⟩ := exists_reads_of_run ran built
  obtain ⟨p, _, rfl, low⟩ := reads_iff.mp reads
  rwa [Expr.height_evaluate_tree]

theorem dumped_of_run (indent : Int) : tree.Dumped (tree.dump stack.inner indent) :=
  Expr.dumped_dump (isPlain_of_run ran built)
    ((height_le_of_run ran built).trans ((spanRoom_le_leafRoom _).trans (leafRoom_inner_le _)))
    indent

end Trees

end Line

end LineCalc
