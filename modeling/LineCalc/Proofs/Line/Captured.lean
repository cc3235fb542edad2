import LineCalc.Proofs.Expr.Levels
import LineCalc.Proofs.Line.Outcome

/-! Which lines have a report.

Whatever is wrong with the tokens of a line, with their order or with the values that it comes to is
captured in its report, and so is an expression of too many levels. An integer of too many digits is
not: the run of a line ends without a report at the first such integer that building comes to. -/

namespace LineCalc

namespace Token

instance decidableShort (t : Token) : Decidable t.Short :=
  inferInstanceAs (Decidable (t.kind = .literal → '.' ∉ t.text.toList → t.text.length ≤ digitLimit))

def firstLong? (tokens : List Token) : Option Token := tokens.find? fun t => ¬ t.Short

variable {front behind : List Token} {t : Token}

theorem short_of_isDelimiter (delimiter : t.isDelimiter = true) : t.Short :=
  short_of_kind_ne (by simp [of_decide_eq_true delimiter])

theorem firstLong?_append : firstLong? (front ++ behind) = (firstLong? front).or (firstLong? behind) :=
  List.find?_append

theorem firstLong?_cons_of_short (rest : List Token) (short : t.Short) :
    firstLong? (t :: rest) = firstLong? rest := by
  simp [firstLong?, short]

theorem firstLong?_singleton_of_long (long : ¬ t.Short) : firstLong? [t] = some t := by
  simp [firstLong?, long]

def ofDigits (digits : List Char) : Token := ⟨String.ofList digits, .literal, literalPriority, 0⟩

theorem length_ofDigits (digits : List Char) : (ofDigits digits).text.length = digits.length :=
  String.length_ofList

theorem toList_text_ofDigits (digits : List Char) : (ofDigits digits).text.toList = digits :=
  String.toList_ofList

theorem wellFormed_ofDigits {digits : List Char} (integer : Text.IsInteger digits) :
    (ofDigits digits).WellFormed :=
  ⟨.inr (by rwa [toList_text_ofDigits]), create_eq_ok_iff.mpr rfl⟩

theorem scan_digits {digits : List Char} (integer : Text.IsInteger digits) :
    scan (String.ofList digits) = .ok [ofDigits digits] := by
  have laid : Laid 0 none ([] ++ (ofDigits digits).text.toList ++ []) [ofDigits digits] :=
    .token (by simp [Text.IsGap]) (by simp) (wellFormed_ofDigits integer) rfl
      (.last (by simp [Text.IsGap]))
  apply scan_eq_ok_iff.mpr
  rwa [List.nil_append, List.append_nil] at laid

theorem firstLong?_digits {digits : List Char} (integer : Text.IsInteger digits)
    (many : digitLimit < digits.length) :
    firstLong? [ofDigits digits] = some (ofDigits digits) := by
  apply firstLong?_singleton_of_long
  intro short
  have few := short rfl (by rw [toList_text_ofDigits]; exact integer.point_not_mem)
  rw [length_ofDigits] at few
  omega

theorem isInteger_replicate (count : Nat) : Text.IsInteger (List.replicate (count + 1) '1') := by
  refine ⟨by simp, ?_⟩
  intro c member
  rw [List.eq_of_mem_replicate member]
  decide

theorem exists_firstLong?_replicate (count : Nat) (many : digitLimit ≤ count) :
    ∃ t, firstLong? [ofDigits (List.replicate (count + 1) '1')] = some t ∧
      Fault.literalTooLong (count + 1) = .literalTooLong t.text.length := by
  have longer : digitLimit < (List.replicate (count + 1) '1').length := by
    rw [List.length_replicate]
    omega
  refine ⟨_, firstLong?_digits (isInteger_replicate count) longer, ?_⟩
  rw [length_ofDigits, List.length_replicate]

end Token

namespace Phrase

open LineCalc.Span
open Token (firstLong? firstLong?_append firstLong?_cons_of_short firstLong?_singleton_of_long)

/-- What building makes of a derivation that has no more levels than are allowed: its tree, or a fault
over its first integer that is too long. -/
def reading (p : Phrase) : Except BuildError Expr :=
  match firstLong? p.tokens with
  | none => .ok p.expr
  | some t => .error (.fault (.literalTooLong t.text.length))

theorem reading_group {opener closer : Token} {inner : Phrase} (opened : opener.isOpen = true)
    (closed : closer.isClose = true) : (group opener inner closer).reading = inner.reading := by
  have shortOpener := Token.short_of_isDelimiter (Token.isDelimiter_of_isOpen opened)
  have shortCloser := Token.short_of_isDelimiter (Token.isDelimiter_of_isClose closed)
  have same : firstLong? (group opener inner closer).tokens = firstLong? inner.tokens := by
    rw [tokens, List.cons_append, firstLong?_cons_of_short _ shortOpener, firstLong?_append,
      firstLong?_cons_of_short [] shortCloser]
    exact Option.or_none
  simp only [reading, same]
  rfl

theorem reading_chain {left right : Phrase} {op : Operator} {sign : Token}
    (kind : sign.kind = .operator) (symbol : sign.text = op.symbol) :
    (chain left op sign right).reading =
      left.reading.bind fun a => right.reading.bind (Expr.join sign.text a) := by
  have shortSign : sign.Short := Token.short_of_kind_ne (by simp [kind])
  have split : firstLong? (chain left op sign right).tokens =
      (firstLong? left.tokens).or (firstLong? right.tokens) := by
    rw [tokens, firstLong?_append, firstLong?_cons_of_short _ shortSign]
  simp only [reading, split]
  cases firstLong? left.tokens with
  | some t => rfl
  | none =>
      cases firstLong? right.tokens with
      | some t => rfl
      | none => simp [Except.bind, Expr.join, symbol, expr]

theorem Derives.build_eq_reading {p : Phrase} {level levels : Nat} (derives : p.Derives level)
    (wellFormed : ∀ t ∈ p.tokens, t.WellFormed) (low : p.expr.height ≤ levels)
    (first : Option Int) (start : Nat) :
    (Expr.build first levels start p.tokens).result = p.reading := by
  induction p generalizing level levels start with
  | atom t =>
      rw [height_atom] at low
      obtain ⟨levels, rfl⟩ : ∃ n, levels = n + 1 := ⟨levels - 1, by omega⟩
      have stripped := strip_of_not_isWrapped start derives.formed.isWrapped_atom
      have wellFormedToken : t.WellFormed := wellFormed t (by simp [tokens])
      rw [tokens] at stripped ⊢
      rw [build_of_strip_single stripped, reading, tokens]
      by_cases short : t.Short
      · rw [firstLong?_cons_of_short [] short]
        exact ofToken_atom wellFormedToken.spelled short derives.atom_inv
      · rw [firstLong?_singleton_of_long short]
        exact ofToken_long wellFormedToken.spelled short
  | group opener inner closer ih =>
      obtain ⟨opened, closed, within⟩ := derives.group_inv
      rw [build_congr (derives.strip_group start), reading_group opened closed]
      exact ih within (forall_mem_group wellFormed) low (start + 1)
  | chain left op sign right ihLeft ihRight =>
      obtain ⟨_, _, _, kind, symbol, derivesLeft, derivesRight⟩ := derives.chain_inv
      have height : (Phrase.chain left op sign right).expr.height =
          max left.expr.height right.expr.height + 1 := rfl
      rw [height] at low
      obtain ⟨levels, rfl⟩ : ∃ n, levels = n + 1 := ⟨levels - 1, by omega⟩
      have stripped := strip_of_not_isWrapped start derives.formed.isWrapped_chain
      have long := length_tokens_chain left op sign right
      have takeLeft : (Phrase.chain left op sign right).tokens.take left.tokens.length = left.tokens := by
        simp [tokens]
      have dropLeft : (Phrase.chain left op sign right).tokens.drop (left.tokens.length + 1) =
          right.tokens := by simp [tokens]
      obtain ⟨wellFormedLeft, _, wellFormedRight⟩ := forall_mem_chain wellFormed
      rw [build_of_root stripped (by omega) (derives.operatorRoot_chain wellFormed), takeLeft,
        dropLeft, ihLeft derivesLeft wellFormedLeft (by omega),
        ihRight derivesRight wellFormedRight (by omega), reading_chain kind symbol]

theorem derives_digits (digits : List Char) : (atom (Token.ofDigits digits)).Derives 0 :=
  (Derives.atom (.inl rfl)).loosen (Nat.zero_le 4)

end Phrase

namespace Line

variable {stack : Stack} {line : String} {p : Phrase}

/-- A line whose tokens are derived, with a tree that is not too high, has no report exactly if one
of its integers is too long, and the first of these is to blame. -/
theorem outcome_eq_error_iff (scanned : Token.scan line = .ok p.tokens) (derives : p.Derives 0)
    (low : p.expr.height ≤ stack.inner.spanRoom) {fault : Fault} :
    (Line.run stack line).outcome = .error fault ↔
      ∃ t, Token.firstLong? p.tokens = some t ∧ fault = .literalTooLong t.text.length := by
  have built : (Expr.ofTokens stack.inner p.tokens).result = p.reading :=
    derives.build_eq_reading (Token.wellFormed_of_scan scanned) low _ 0
  rw [← evaluate_eq_fault_iff]
  simp only [Line.evaluate, scanned, built, Phrase.reading]
  cases Token.firstLong? p.tokens with
  | none =>
      simp only
      cases (p.expr.evaluate stack.inner).result <;> simp [Except.mapError]
  | some t => simp [LineError.ofBuildError, eq_comm]

theorem exists_report_of_short
    (short : ∀ tokens, Token.scan line = .ok tokens → ∀ t ∈ tokens, t.Short) :
    ∃ report, (Line.run stack line).outcome = .ok report := by
  have outcome := outcome_run stack line
  generalize (Line.run stack line).outcome = result at outcome
  cases outcome with
  | tooLong scanned _ member long => exact absurd (short _ scanned _ member) long
  | _ => exact ⟨_, rfl⟩

theorem Spells.exists_report_of_high (spells : Spells line p)
    (high : stack.inner.spanRoom < p.expr.height) :
    ∃ report, (Line.run stack line).outcome = .ok report ∧
      report.error =
        some (ParseError.failure ⟨.tooDeep, p.tokens.head?.map Token.position⟩) := by
  have built := spells.ofTokens_result stack.inner
  rw [if_neg (Nat.not_le.mpr high)] at built
  simp only [Line.run, spells.scanned, built]
  exact ⟨_, rfl, rfl⟩

theorem Spells.evaluate_of_le (spells : Spells line p) (low : p.expr.height ≤ stack.inner.spanRoom)
    (few : p.expr.frames ≤ stack.inner.nodeRoom) :
    Line.evaluate stack line = p.expr.evaluateAll.result.mapError .eval := by
  rw [spells.evaluate_eq, if_pos low, Expr.evaluate_eq_evaluateAll few]

/-- The run of a line ends in a report that captures what went wrong with it, at whatever stage, unless
it comes to an integer that is too long. A line without such integers has a report, also if its tree
is too high. A line that would be built but for such integers has none, and the first of them is to
blame. -/
theorem run_captures (stack : Stack) (line : String) :
    Outcome stack line (Line.run stack line).outcome ∧
    ((∀ tokens, Token.scan line = .ok tokens → ∀ t ∈ tokens, t.Short) →
      ∃ report, (Line.run stack line).outcome = .ok report) ∧
    (∀ p : Phrase, Spells line p → stack.inner.spanRoom < p.expr.height →
      ∃ report, (Line.run stack line).outcome = .ok report ∧
        report.error =
          some (ParseError.failure ⟨.tooDeep, p.tokens.head?.map Token.position⟩)) ∧
    ∀ p : Phrase, Token.scan line = .ok p.tokens → p.Derives 0 →
      p.expr.height ≤ stack.inner.spanRoom → ∀ fault, (Line.run stack line).outcome = .error fault ↔
        ∃ t, Token.firstLong? p.tokens = some t ∧ fault = .literalTooLong t.text.length := by
  refine ⟨outcome_run stack line, exists_report_of_short, ?_, ?_⟩
  · intro p spells high
    exact spells.exists_report_of_high high
  · intro p scanned derives low fault
    exact outcome_eq_error_iff scanned derives low

/-- A sum of 1001 ones is refused in its report as too high. A line of 5000 digits has no report. -/
theorem run_captures_ones :
    (∃ report position,
      (Line.run .empty (" ".intercalate ((Phrase.ones 1000).tokens.map Token.text))).outcome =
          .ok report ∧
        report.error = some (ParseError.failure ⟨.tooDeep, position⟩)) ∧
    (Line.run .empty (String.ofList (List.replicate 5000 '1'))).outcome =
      .error (.literalTooLong 5000) := by
  constructor
  · obtain ⟨p, spells, same⟩ := exists_spells ((Phrase.derives_ones 1000).loosen (by decide))
      (Phrase.wellFormed_ones 1000) (Phrase.short_ones 1000)
    have high : Stack.empty.inner.spanRoom < p.expr.height := by
      rw [same, Phrase.height_ones]
      decide
    obtain ⟨report, ran, refused⟩ := (run_captures .empty _).2.2.1 p spells high
    exact ⟨report, _, ran, refused⟩
  · apply ((run_captures .empty _).2.2.2 _ (Token.scan_digits (Token.isInteger_replicate 4999))
      (Phrase.derives_digits _) (by decide) _).mpr
    exact Token.exists_firstLong?_replicate 4999 (by decide)

/-- One digit more than the limit leaves a line without a report. -/
theorem run_digits :
    (Line.run .empty (String.ofList (List.replicate 4301 '1'))).outcome =
      .error (.literalTooLong 4301) := by
  apply (outcome_eq_error_iff (Token.scan_digits (Token.isInteger_replicate 4300))
    (Phrase.derives_digits _) (by decide)).mpr
  exact Token.exists_firstLong?_replicate 4300 (by decide)

end Line

end LineCalc
