import LineCalc.Dialogue
import LineCalc.Proofs.Line.Outcome

/-! The course of a dialogue.

Line after line is answered, and the farewell comes last. Whatever is wrong with a line is its
answer, but for one thing: an integer of too many digits is not read where it stands in the line, and
not written where it is the value or stands in a tree that is shown. There the dialogue stops. -/

namespace LineCalc

namespace Report

variable {stack : Stack} {report : Report} {tree : Expr} {showTokens showTree : Bool}

theorem exists_describe (showTokens : Bool)
    (dumps : showTree = true → ∀ tree ∈ report.tree, ∃ dump, tree.dump stack.inner 0 = .ok dump) :
    ∃ dump, report.describe stack showTokens showTree = .ok dump := by
  cases showTree with
  | false => exact ⟨_, rfl⟩
  | true =>
      cases shown : report.tree with
      | none =>
          simp only [describe, shown]
          exact ⟨_, rfl⟩
      | some tree =>
          rcases dumps rfl tree shown with ⟨dump, dumped⟩
          simp only [describe, shown, dumped]
          exact ⟨_, rfl⟩

theorem describe_of_dump_error {fault : Fault} (shown : report.tree = some tree)
    (failed : tree.dump stack.inner 0 = .error fault) : report.describe stack showTokens true = .error fault := by
  simp only [describe, shown, failed]
  rfl

end Report

namespace Dialogue

open Line (Reads)

/-- The rows that a text is cut into: each ends with a line feed, which the last may lack unless it
is empty. -/
structure Rows (input : String) (rows : List String) : Prop where
  unbroken : ∀ row ∈ rows, '\n' ∉ row.toList
  joined : input = String.join (rows.map (· ++ "\n")) ∨
    input ++ "\n" = String.join (rows.map (· ++ "\n")) ∧ rows.getLast? ≠ some ""

def Dumps (stack : Stack) (settings : Settings) (line dump : String) : Prop :=
  ∃ report, (Line.run stack line).outcome = .ok report ∧
    report.describe stack settings.showTokens settings.showTree = .ok dump

inductive Answers (stack : Stack) (settings : Settings) (line : String) : String → Prop
  | value {value : Value} {dump text : String} (dumps : Dumps stack settings line dump)
      (evaluated : Line.evaluate stack line = .ok value) (written : value.text = .ok text) :
      Answers stack settings line (paragraph dump ++ (settings.resultPrefix ++ text) ++ "\n")
  | failure {error : LineError} {failure : Failure} {dump : String}
      (dumps : Dumps stack settings line dump) (evaluated : Line.evaluate stack line = .error error)
      (known : error.failure = .ok failure) :
      Answers stack settings line (paragraph dump ++ failure.text ++ "\n")

inductive Stuck (stack : Stack) (settings : Settings) (line : String) : String → Fault → Prop
  | literal {tokens : List Token} {t : Token} (scanned : Token.scan line = .ok tokens)
      (built : (Expr.ofTokens stack.inner tokens).result = .error (.fault (.literalTooLong t.text.length)))
      (member : t ∈ tokens) (long : ¬ t.Short) :
      Stuck stack settings line "" (.literalTooLong t.text.length)
  | tree {e : Expr} {value : Value} (shown : settings.showTree = true) (reads : Reads stack.inner line e)
      (member : value ∈ (e.evaluate stack.inner).tree.leaves) (long : value.IsLong) :
      Stuck stack settings line "" .integerTooLong
  | value {value : Value} {dump : String} (dumps : Dumps stack settings line dump)
      (evaluated : Line.evaluate stack line = .ok value) (long : value.IsLong) :
      Stuck stack settings line (paragraph dump) .integerTooLong

/-- What is written while some rows are read, and the fault that it ends with, if any. -/
inductive Course (stack : Stack) (settings : Settings) : List String → String → Option Fault → Prop
  | farewell : Course stack settings [] (settings.prompt ++ "\n" ++ settings.farewell ++ "\n") none
  | blank {row : String} {rows : List String} {output : String} {fault : Option Fault}
      (blank : isBlankLine (trimEnd row) = true) (rest : Course stack settings rows output fault) :
      Course stack settings (row :: rows) (settings.prompt ++ output) fault
  | answer {row text : String} {rows : List String} {output : String} {fault : Option Fault}
      (visible : isBlankLine (trimEnd row) = false) (answers : Answers stack settings (trimEnd row) text)
      (rest : Course stack settings rows output fault) :
      Course stack settings (row :: rows) (settings.prompt ++ text ++ output) fault
  | stop {row part : String} {rows : List String} {fault : Fault}
      (visible : isBlankLine (trimEnd row) = false)
      (stuck : Stuck stack settings (trimEnd row) part fault) :
      Course stack settings (row :: rows) (settings.prompt ++ part) (some fault)

theorem cutLines_unbroken (cs : List Char) : ∀ row ∈ cutLines cs, '\n' ∉ row := by
  fun_induction cutLines cs with
  | case1 => simp
  | case2 rest ih => simpa using ih
  | case3 c rest other none ih => simpa using Ne.symm other
  | case4 c rest other line rows cut ih =>
      rw [cut] at ih
      simp only [List.forall_mem_cons] at ih ⊢
      exact ⟨by simpa [Ne.symm other] using ih.1, ih.2⟩

theorem cutLines_joined (cs : List Char) :
    cs = (cutLines cs).flatMap (· ++ ['\n']) ∨
      cs ++ ['\n'] = (cutLines cs).flatMap (· ++ ['\n']) ∧ (cutLines cs).getLast? ≠ some [] := by
  fun_induction cutLines cs with
  | case1 => simp
  | case2 rest ih =>
      rcases ih with whole | ⟨whole, last⟩
      · left
        rw [List.flatMap_cons, ← whole]
        rfl
      · right
        refine ⟨by rw [List.flatMap_cons, ← whole]; rfl, ?_⟩
        cases cut : cutLines rest with
        | nil => simp [cut] at whole
        | cons row rows =>
            rw [List.getLast?_cons_cons, ← cut]
            exact last
  | case3 c rest other none ih =>
      have nothing : rest = [] := by simpa [none] using ih
      simp [nothing]
  | case4 c rest other line rows cut ih =>
      rw [cut] at ih
      rcases ih with whole | ⟨whole, last⟩
      · left
        rw [whole]
        rfl
      · right
        refine ⟨congrArg (c :: ·) whole, ?_⟩
        cases rows with
        | nil => simp
        | cons row rows =>
            rw [List.getLast?_cons_cons] at last ⊢
            exact last

theorem rows_lines (input : String) : Rows input (lines input) := by
  have joined : (String.join ((lines input).map (· ++ "\n"))).toList =
      (cutLines input.toList).flatMap (· ++ ['\n']) := by
    simp [lines, List.flatMap_map]
  refine ⟨?_, ?_⟩
  · intro row member
    rcases List.mem_map.mp member with ⟨cs, cut, rfl⟩
    rw [String.toList_ofList]
    exact cutLines_unbroken _ cs cut
  · rcases cutLines_joined input.toList with whole | ⟨whole, last⟩
    · left
      rw [← String.toList_inj, joined]
      exact whole
    · right
      refine ⟨?_, ?_⟩
      · rw [← String.toList_inj, joined, String.toList_append]
        exact whole
      · intro empty
        rw [lines, List.getLast?_map, Option.map_eq_some_iff] at empty
        rcases empty with ⟨cs, final, blank⟩
        have nothing : cs = [] := by simpa using congrArg String.toList blank
        exact last (nothing ▸ final)

section Row

variable {stack : Stack} {settings : Settings} {row line text part : String} {fault : Fault}

theorem Answers.answer_eq (visible : isBlankLine (trimEnd row) = false)
    (answers : Answers stack settings (trimEnd row) text) :
    (answer stack settings row).output = text ∧ (answer stack settings row).fault = none := by
  cases answers with
  | value dumps evaluated written =>
      rcases dumps with ⟨report, ran, described⟩
      have rendered := Line.render_of_run ran settings.resultPrefix
      rw [evaluated] at rendered
      simp only [written, Except.map] at rendered
      simp [answer, visible, ran, answerReport, described, rendered]
  | failure dumps evaluated known =>
      rcases dumps with ⟨report, ran, described⟩
      have rendered := Line.render_of_run ran settings.resultPrefix
      rw [evaluated] at rendered
      simp only [known, Except.map] at rendered
      simp [answer, visible, ran, answerReport, described, rendered]

theorem Stuck.answer_eq (visible : isBlankLine (trimEnd row) = false)
    (stuck : Stuck stack settings (trimEnd row) part fault) :
    (answer stack settings row).output = part ∧ (answer stack settings row).fault = some fault := by
  cases stuck with
  | literal scanned built member long =>
      simp [answer, visible, Line.run, scanned, built, Line.failedRun, LineError.ofBuildError,
        LineError.failure]
  | tree shown reads member long =>
      rcases reads.exists_report with ⟨report, ran, left⟩
      have failed : report.describe stack settings.showTokens settings.showTree =
          .error .integerTooLong := by
        rw [shown]
        apply Report.describe_of_dump_error left
        have dumped := Line.dumped_of_run ran left 0
        generalize Expr.dump stack.inner 0 _ = result at dumped ⊢
        cases dumped with
        | shown dump short => exact absurd long (short _ member)
        | tooLong => rfl
      simp [answer, visible, ran, answerReport, failed]
  | value dumps evaluated long =>
      rcases dumps with ⟨report, ran, described⟩
      have rendered := Line.render_of_run ran settings.resultPrefix
      rw [evaluated] at rendered
      simp only [Value.text_of_isLong long, Except.map] at rendered
      simp [answer, visible, ran, answerReport, described, rendered]

theorem dumps_or_stuck (stack : Stack) (settings : Settings) {report : Report}
    (ran : (Line.run stack line).outcome = .ok report) :
    (∃ dump, Dumps stack settings line dump) ∨ Stuck stack settings line "" .integerTooLong := by
  by_cases shows : settings.showTree = true → ∀ tree ∈ report.tree, ∃ dump, tree.dump stack.inner 0 = .ok dump
  · left
    rcases Report.exists_describe settings.showTokens shows with ⟨dump, described⟩
    exact ⟨dump, report, ran, described⟩
  · right
    simp only [Classical.not_imp, not_forall] at shows
    rcases shows with ⟨shown, tree, built, undumped⟩
    have dumped := Line.dumped_of_run ran built 0
    rcases Line.exists_reads_of_run ran built with ⟨e, reads, rfl⟩
    generalize (e.evaluate stack.inner).tree.dump stack.inner 0 = result at dumped undumped
    cases dumped with
    | shown dump _ => exact absurd ⟨dump, rfl⟩ undumped
    | tooLong member long => exact .tree shown reads member long

theorem answers_or_stuck (stack : Stack) (settings : Settings) (line : String) :
    (∃ text, Answers stack settings line text) ∨ ∃ part fault, Stuck stack settings line part fault := by
  cases ran : (Line.run stack line).outcome with
  | error fault =>
      have outcome := Line.outcome_run stack line
      rw [ran] at outcome
      cases outcome with
      | tooLong scanned built member long =>
          exact .inr ⟨_, _, .literal scanned built member long⟩
  | ok report =>
      rcases dumps_or_stuck stack settings ran with ⟨dump, dumps⟩ | stuck
      · cases evaluated : Line.evaluate stack line with
        | ok value =>
            by_cases long : value.IsLong
            · exact .inr ⟨_, _, .value dumps evaluated long⟩
            · rcases Value.exists_text_of_not_isLong long with ⟨text, written⟩
              exact .inl ⟨_, .value dumps evaluated written⟩
        | error error =>
            cases error with
            | fault fault =>
                rw [Line.evaluate_eq_fault_iff, ran] at evaluated
                cases evaluated
            | _ => exact .inl ⟨_, .failure dumps evaluated rfl⟩
      · exact .inr ⟨_, _, stuck⟩

theorem answer_of_blank (stack : Stack) (settings : Settings) (blank : isBlankLine (trimEnd row) = true) :
    answer stack settings row = .empty := by
  simp [answer, blank]

theorem fault_answer_eq_none_iff :
    (answer stack settings row).fault = none ↔
      (isBlankLine (trimEnd row) = false →
        ∀ part fault, ¬ Stuck stack settings (trimEnd row) part fault) := by
  constructor
  · intro answered visible part fault stuck
    rw [(stuck.answer_eq visible).2] at answered
    cases answered
  · intro free
    cases visible : isBlankLine (trimEnd row) with
    | true => rw [answer_of_blank stack settings visible, Transcript.empty]
    | false =>
        rcases answers_or_stuck stack settings (trimEnd row) with ⟨text, answers⟩ | ⟨part, fault, stuck⟩
        · exact (answers.answer_eq visible).2
        · exact absurd stuck (free visible part fault)

end Row

variable {stack : Stack} {settings : Settings}

theorem onLines_of_answered {row : String} (rows : List String)
    (answered : (answer stack settings row).fault = none) :
    (onLines stack settings (row :: rows)).output =
        settings.prompt ++ (answer stack settings row).output ++ (onLines stack settings rows).output ∧
      (onLines stack settings (row :: rows)).fault = (onLines stack settings rows).fault := by
  simp [onLines, Transcript.append, answered]

theorem onLines_of_fault {row : String} {fault : Fault} (rows : List String)
    (stopped : (answer stack settings row).fault = some fault) :
    (onLines stack settings (row :: rows)).output = settings.prompt ++ (answer stack settings row).output ∧
      (onLines stack settings (row :: rows)).fault = some fault := by
  simp [onLines, Transcript.append, stopped]

theorem Course.onLines_eq {rows : List String} {output : String} {fault : Option Fault}
    (course : Course stack settings rows output fault) :
    (onLines stack settings rows).output = output ∧ (onLines stack settings rows).fault = fault := by
  induction course with
  | farewell => exact ⟨rfl, rfl⟩
  | @blank row rows _ _ blank _ ih =>
      have empty := answer_of_blank stack settings blank
      have answered : (Dialogue.answer stack settings row).fault = none := by rw [empty, Transcript.empty]
      have step := onLines_of_answered rows answered
      rw [step.1, step.2, empty, ih.1, ih.2]
      simp [Transcript.empty]
  | @answer row text rows _ _ visible answers _ ih =>
      have answered := answers.answer_eq visible
      have step := onLines_of_answered rows answered.2
      rw [step.1, step.2, answered.1, ih.1, ih.2]
      exact ⟨rfl, rfl⟩
  | @stop row part rows fault visible stuck =>
      have stopped := stuck.answer_eq visible
      have step := onLines_of_fault rows stopped.2
      rw [step.1, step.2, stopped.1]
      exact ⟨rfl, rfl⟩

theorem exists_course (stack : Stack) (settings : Settings) (rows : List String) :
    ∃ output fault, Course stack settings rows output fault := by
  induction rows with
  | nil => exact ⟨_, _, .farewell⟩
  | cons row rows ih =>
      rcases ih with ⟨output, fault, rest⟩
      cases visible : isBlankLine (trimEnd row) with
      | true => exact ⟨_, _, .blank visible rest⟩
      | false =>
          rcases answers_or_stuck stack settings (trimEnd row) with ⟨text, answers⟩ | ⟨part, fault, stuck⟩
          · exact ⟨_, _, .answer visible answers rest⟩
          · exact ⟨_, _, .stop visible stuck⟩

theorem course_iff {rows : List String} {output : String} {fault : Option Fault} :
    Course stack settings rows output fault ↔
      (onLines stack settings rows).output = output ∧ (onLines stack settings rows).fault = fault := by
  constructor
  · intro course
    exact course.onLines_eq
  · rintro ⟨rfl, rfl⟩
    rcases exists_course stack settings rows with ⟨output, fault, course⟩
    rw [course.onLines_eq.1, course.onLines_eq.2]
    exact course

theorem fault_onLines_eq_none_iff {rows : List String} :
    (onLines stack settings rows).fault = none ↔
      ∀ row ∈ rows, isBlankLine (trimEnd row) = false →
        ∀ part fault, ¬ Stuck stack settings (trimEnd row) part fault := by
  induction rows with
  | nil => simp [onLines]
  | cons row rows ih =>
      rw [List.forall_mem_cons, ← ih, ← fault_answer_eq_none_iff]
      cases answered : (answer stack settings row).fault with
      | none => simp [(onLines_of_answered rows answered).2]
      | some fault => simp [(onLines_of_fault rows answered).2]

/-- A dialogue reads an input row by row and takes its course, which is the only one: every row is
answered, a blank one with nothing but the next prompt, and the farewell comes last. It falls short
of the end exactly if a row has no answer because an integer has too many digits. -/
theorem run_course (stack : Stack) (settings : Settings) (input : String) :
    Rows input (lines input) ∧
    (∀ output fault, Course stack.inner settings (lines input) output fault ↔
      (run stack settings input).output = output ∧ (run stack settings input).fault = fault) ∧
    ((run stack settings input).fault = none ↔ ∀ row ∈ lines input, isBlankLine (trimEnd row) = false →
      ∀ part fault, ¬ Stuck stack.inner settings (trimEnd row) part fault) :=
  ⟨rows_lines input, fun _ _ => course_iff, fault_onLines_eq_none_iff⟩

/-- The power of `10^4300` has one digit too many, and the row behind it is not read. -/
theorem run_power :
    (run .empty .default "10^4300\n1\n").output = ">>> " ∧
      (run .empty .default "10^4300\n1\n").fault = some .integerTooLong := by
  have cut : lines "10^4300\n1\n" = ["10^4300", "1"] := by decide +kernel
  have reads : Reads Stack.empty.inner.inner "10^4300" (.binary .pow (.literal (.number (.int 10)))
      (.literal (.number (.int 4300)))) :=
    ⟨[⟨"10", .literal, 1000, 0⟩, ⟨"^", .operator, 3, 2⟩, ⟨"4300", .literal, 1000, 3⟩],
      by decide +kernel, by decide +kernel⟩
  have evaluated : Line.evaluate Stack.empty.inner "10^4300" = .ok (.number (.int (Number.intPow 10 4300))) := by
    rw [reads.evaluate_eq]
    rfl
  have long : (Value.number (.int (Number.intPow 10 4300))).IsLong := by
    have size (n : Nat) : (Int.pow 10 n).natAbs = Nat.pow 10 n := Int.natAbs_pow 10 n
    rw [Value.isLong_int_iff, Number.intPow_eq, size, digitLimit]
  have dumps : Dumps Stack.empty.inner .default "10^4300" "" := by
    rcases reads.exists_report with ⟨report, ran, _⟩
    exact ⟨report, ran, rfl⟩
  have stuck : Stuck Stack.empty.inner .default (trimEnd "10^4300") (paragraph "") .integerTooLong :=
    .value dumps evaluated long
  have course : Course Stack.empty.inner .default (lines "10^4300\n1\n") (">>> " ++ paragraph "")
      (some .integerTooLong) := by
    rw [cut]
    exact .stop (by decide +kernel) stuck
  exact course.onLines_eq

end Dialogue

end LineCalc
