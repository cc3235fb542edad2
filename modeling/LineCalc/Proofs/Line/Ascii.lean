import LineCalc.Proofs.Expr.Ascii
import LineCalc.Proofs.Line.Outcome
import LineCalc.Proofs.Line.Unreached

namespace LineCalc

/-- An error with the text that it shows in ASCII; only refusals of building show a text of a line that has
tokens. -/
def LineError.inAscii : LineError → LineError
  | parse e => parse e.inAscii
  | error => error

def Failure.inAscii (f : Failure) : Failure :=
  { f with message := Text.inAscii f.message, snippet := f.snippet.map Text.inAscii }

def Report.inAscii (r : Report) : Report :=
  { r with
    line := Text.inAscii r.line
    error := r.error.map Failure.inAscii
    tokens := r.tokens.map Token.inAscii }

theorem ParseCause.message_inAscii (cause : ParseCause) :
    cause.inAscii.message = Text.inAscii cause.message := by
  cases cause with
  | missingOperandFor operator => exact (Text.inAscii_quoted (by decide) operator).symm
  | invalidToken text => exact (Text.inAscii_quoted (by decide) text).symm
  | missingOperand | invalidSyntax | invalidParenthesis | tooDeep =>
      exact (Text.inAscii_of_all_lt (by decide)).symm

theorem ParseError.failure_inAscii (e : ParseError) : e.inAscii.failure = e.failure.inAscii := by
  simp [failure, inAscii, Failure.inAscii, ParseCause.message_inAscii]

theorem EvalError.Arises.failure_inAscii {e : EvalError} (arises : e.Arises) :
    e.failure.inAscii = e.failure := by
  have quoted {lead : String} (ascii : (lead.toList.all fun c => c.toNat < 128) = true) (op : Operator) :
      Text.inAscii (lead ++ op.symbol ++ "`") = lead ++ op.symbol ++ "`" := by
    rw [Text.inAscii_quoted ascii, Token.inAscii_symbol]
  have same : Text.inAscii e.message = e.message := by
    cases arises with
    | tooDeep | target | divisor => exact Text.inAscii_of_all_lt (by decide)
    | overflow op => exact quoted (by decide) op
    | operand op => exact quoted (by decide) op
  simp [failure, Failure.ofMessage, Failure.inAscii, same]

namespace Line

variable {stack : Stack} {line : String} {tokens : List Token}

theorem evaluate_inAscii (scanned : Token.scan line = .ok tokens)
    (scanned' : Token.scan (Text.inAscii line) = .ok (tokens.map Token.inAscii)) :
    Line.evaluate stack (Text.inAscii line) = (Line.evaluate stack line).mapError LineError.inAscii := by
  have built := Expr.ofTokens_inAscii stack.inner (Token.wellFormed_of_scan scanned)
  simp only [Line.evaluate, scanned, scanned', built, Building.inAscii]
  cases (Expr.ofTokens stack.inner tokens).result with
  | error e => cases e <;> rfl
  | ok tree =>
      simp only [Except.mapError]
      cases (tree.evaluate stack.inner).result <;> rfl

theorem outcome_run_inAscii (scanned : Token.scan line = .ok tokens)
    (scanned' : Token.scan (Text.inAscii line) = .ok (tokens.map Token.inAscii)) :
    (Line.run stack (Text.inAscii line)).outcome = (Line.run stack line).outcome.map Report.inAscii := by
  have building := Expr.ofTokens_inAscii stack.inner (Token.wellFormed_of_scan scanned)
  cases built : (Expr.ofTokens stack.inner tokens).result with
  | error e =>
      cases e with
      | parse e =>
          simp only [Line.run, scanned, scanned', building, Building.inAscii, built, Except.mapError,
            BuildError.inAscii, LineError.ofBuildError, failedRun, LineError.failure,
            ParseError.failure_inAscii]
          rfl
      | fault f =>
          simp only [Line.run, scanned, scanned', building, Building.inAscii, built, Except.mapError,
            BuildError.inAscii, LineError.ofBuildError, failedRun, LineError.failure]
          rfl
  | ok tree =>
      cases came : (tree.evaluate stack.inner).result with
      | error e =>
          have plain := Expr.isPlain_of_isFresh (Expr.keeps_of_build built).isFresh
          have arises := Expr.arises_of_evaluateWithin plain came
          simp only [Line.run, scanned, scanned', building, Building.inAscii, built, Except.mapError,
            came, failedRun, LineError.failure, Except.map, Report.inAscii, Option.map_some,
            arises.failure_inAscii]
      | ok value =>
          simp only [Line.run, scanned, scanned', building, Building.inAscii, built, Except.mapError,
            came]
          rfl

/-- If no literal starts where an identifier ends, digits of all scripts are interchangeable: the line in
ASCII is scanned, built and evaluated as the line is. Its tokens are the same but for the digits in their
texts, and so is the report, where a refusal has the same kind and position and the same words but for the
digits in them. -/
theorem run_inAscii (stack : Stack) (scanned : Token.scan line = .ok tokens)
    (apart : ∀ t ∈ tokens, ∀ u ∈ tokens, t.kind = .identifier → u.kind = .literal →
      u.position ≠ t.position + t.text.length) :
    Token.scan (Text.inAscii line) = .ok (tokens.map Token.inAscii) ∧
    (Expr.ofTokens stack.inner (tokens.map Token.inAscii)).result =
      (Expr.ofTokens stack.inner tokens).result.mapError BuildError.inAscii ∧
    Line.evaluate stack (Text.inAscii line) = (Line.evaluate stack line).mapError LineError.inAscii ∧
    (Line.run stack (Text.inAscii line)).outcome = (Line.run stack line).outcome.map Report.inAscii := by
  have scanned' := Token.scan_inAscii scanned apart
  refine ⟨scanned', ?_, evaluate_inAscii scanned scanned', outcome_run_inAscii scanned scanned'⟩
  rw [Expr.ofTokens_inAscii stack.inner (Token.wellFormed_of_scan scanned)]
  rfl

/-- Forty-two times four is the same in two scripts, and so is a refusal but for the digit that it
shows. -/
theorem run_inAscii_scripts :
    (Line.evaluate .empty "42*(1+3)" = .ok (.number (.int 168)) ∧
      (Line.run .empty "42*(1+3)").outcome = (Line.run .empty "٤2*(1+٣)").outcome.map Report.inAscii) ∧
    Line.evaluate .empty "x+٣ ٤" = .error (.parse ⟨.invalidToken "٤", some 4⟩) ∧
    Line.evaluate .empty "x+3 4" = .error (.parse ⟨.invalidToken "4", some 4⟩) ∧
    (Line.run .empty "x+3 4").outcome = (Line.run .empty "x+٣ ٤").outcome.map Report.inAscii := by
  have scanned : Token.scan "٤2*(1+٣)" = .ok [⟨"٤2", .literal, 1000, 0⟩, ⟨"*", .operator, 2, 2⟩,
      ⟨"(", .delimiter, -1, 3⟩, ⟨"1", .literal, 1000, 4⟩, ⟨"+", .operator, 1, 5⟩,
      ⟨"٣", .literal, 1000, 6⟩, ⟨")", .delimiter, -1, 7⟩] := by decide +kernel
  have refused : Token.scan "x+٣ ٤" = .ok [⟨"x", .identifier, 999, 0⟩, ⟨"+", .operator, 1, 1⟩,
      ⟨"٣", .literal, 1000, 2⟩, ⟨"٤", .literal, 1000, 4⟩] := by decide +kernel
  have came : Line.evaluate .empty "٤2*(1+٣)" = .ok (.number (.int 168)) := by decide +kernel
  have failed : Line.evaluate .empty "x+٣ ٤" = .error (.parse ⟨.invalidToken "٤", some 4⟩) := by
    decide +kernel
  have ascii : Text.inAscii "٤2*(1+٣)" = "42*(1+3)" := by decide +kernel
  have ascii' : Text.inAscii "x+٣ ٤" = "x+3 4" := by decide +kernel
  have same := run_inAscii .empty scanned (by decide)
  have same' := run_inAscii .empty refused (by decide)
  rw [ascii, came] at same
  rw [ascii', failed] at same'
  exact ⟨same.2.2, failed, same'.2.2⟩

-- Behind an identifier an ASCII digit is a part of it, and a digit of another script is not.
example : Token.scan "x٣" = .ok [⟨"x", .identifier, 999, 0⟩, ⟨"٣", .literal, 1000, 1⟩] ∧
    Token.scan (Text.inAscii "x٣") = .ok [⟨"x3", .identifier, 999, 0⟩] := by decide +kernel

end Line

end LineCalc
