import LineCalc.Proofs.Expr.Shape
import LineCalc.Proofs.Line.Captured
import LineCalc.Proofs.Line.Compose
import LineCalc.Proofs.Text.Ascii

namespace LineCalc

open Text (IsInteger digitValue? numberOfDigits toAscii withoutZeros)

namespace Value

variable {n : Int}

theorem text_int_eq_error_iff {fault : Fault} :
    (number (.int n)).text = .error fault ↔ (number (.int n)).IsLong ∧ fault = .integerTooLong := by
  by_cases long : (number (.int n)).IsLong
  · simp [text_of_isLong long, long, eq_comm]
  · simp [text_int_of_not_isLong long, long]

theorem toList_toString_of_neg (negative : n < 0) :
    (toString n).toList = '-' :: Nat.toDigits 10 n.natAbs := by
  rw [← Numeral.text_ofInt]
  simp [Numeral.text, Numeral.fraction, Numeral.ofInt, negative]

theorem toList_toString_of_nonneg (nonneg : 0 ≤ n) :
    (toString n).toList = Nat.toDigits 10 n.natAbs := by
  rw [← Numeral.text_ofInt]
  simp [Numeral.text, Numeral.fraction, Numeral.ofInt, nonneg]

end Value

theorem Text.isInteger_toDigits (n : Nat) : IsInteger (Nat.toDigits 10 n) :=
  ⟨Nat.toDigits_ne_nil, fun _ member => isDigit_of_isAsciiDigit (isDigit_of_mem_toDigits member)⟩

variable {digits left right : List Char}

theorem Token.short_ofDigits (few : digits.length ≤ digitLimit) : (ofDigits digits).Short := by
  intro _ _
  rwa [length_ofDigits]

theorem Phrase.expr_digits {t : Token} (literal : t.kind = .literal) (integer : IsInteger t.text.toList) :
    (atom t).expr = .literal (.number (.int (numberOfDigits t.text.toList))) := by
  rw [expr, if_pos literal, Number.ofLiteral, if_neg integer.point_not_mem]

theorem Token.scan_difference (first : IsInteger left) (second : IsInteger right) :
    scan (String.ofList (left ++ '-' :: right)) =
      .ok [ofDigits left, sign .sub left.length, { ofDigits right with position := left.length + 1 }] := by
  let behind : Token := { ofDigits right with position := left.length + 1 }
  have last : Laid (left.length + 1) (some (sign .sub left.length)) ([] ++ behind.text.toList ++ [])
      [behind] := by
    refine .token (by simp [Text.IsGap]) ?_ ((wellFormed_ofDigits second).at_position _) rfl
      (.last (by simp [Text.IsGap]))
    rintro _ t ⟨⟩ clash
    cases clash <;> contradiction
  have middle : Laid left.length (some (ofDigits left))
      ([] ++ (sign .sub left.length).text.toList ++ ([] ++ behind.text.toList ++ []))
      [sign .sub left.length, behind] := by
    refine .token (by simp [Text.IsGap]) ?_ (sign_wellFormed .sub left.length) rfl
      (by simpa [sign, Operator.symbol] using last)
    rintro _ t ⟨⟩ clash
    cases clash <;> contradiction
  have whole : Laid 0 none ([] ++ (ofDigits left).text.toList ++ _)
      [ofDigits left, sign .sub left.length, behind] :=
    .token (by simp [Text.IsGap]) (by simp) (wellFormed_ofDigits first) rfl
      (by simpa [toList_text_ofDigits] using middle)
  apply scan_eq_ok_iff.mpr
  simpa [toList_text_ofDigits, behind, sign, Operator.symbol] using whole

namespace Line

section Evaluation

variable {stack : Stack}

theorem evaluate_digits (spans : 1 ≤ stack.inner.spanRoom) (nodes : 1 ≤ stack.inner.nodeRoom)
    (integer : IsInteger digits) (few : digits.length ≤ digitLimit) :
    Line.evaluate stack (String.ofList digits) = .ok (.number (.int (numberOfDigits digits))) := by
  have text := Token.toList_text_ofDigits digits
  have spells : Spells (String.ofList digits) (.atom (Token.ofDigits digits)) :=
    ⟨Token.scan_digits integer, Phrase.derives_digits digits,
      List.forall_mem_singleton.mpr (Token.short_ofDigits few)⟩
  have tree := Phrase.expr_digits (t := Token.ofDigits digits) rfl (by rwa [text])
  rw [spells.evaluate_of_le (by rw [tree]; exact spans) (by rw [tree]; exact nodes), tree, text]
  rfl

theorem evaluate_digits_of_lt (spans : 1 ≤ stack.inner.spanRoom) (integer : IsInteger digits)
    (many : digitLimit < digits.length) :
    Line.evaluate stack (String.ofList digits) = .error (.fault (.literalTooLong digits.length)) := by
  apply evaluate_eq_fault_iff.mpr
  apply (outcome_eq_error_iff (Token.scan_digits integer) (Phrase.derives_digits digits) ?_).mpr
  · exact ⟨_, Token.firstLong?_digits integer many, by rw [Token.length_ofDigits]⟩
  · rwa [Phrase.height_atom]

theorem evaluate_difference (spans : 2 ≤ stack.inner.spanRoom) (nodes : 2 ≤ stack.inner.nodeRoom)
    (first : IsInteger left) (second : IsInteger right) (few : left.length ≤ digitLimit)
    (few' : right.length ≤ digitLimit) :
    Line.evaluate stack (String.ofList (left ++ '-' :: right)) =
      .ok (.number (.int (numberOfDigits left - numberOfDigits right))) := by
  have text := Token.toList_text_ofDigits
  let behind : Token := { Token.ofDigits right with position := left.length + 1 }
  have spells : Spells (String.ofList (left ++ '-' :: right))
      (.chain (.atom (Token.ofDigits left)) .sub (Token.sign .sub left.length) (.atom behind)) := by
    refine ⟨Token.scan_difference first second, ?_, ?_⟩
    · exact (Phrase.Derives.atom (.inl rfl)).join (.atom (.inl rfl)) .sub left.length
    · have shortLeft : ∀ t ∈ (Phrase.atom (Token.ofDigits left)).tokens, t.Short :=
        List.forall_mem_singleton.mpr (Token.short_ofDigits few)
      have shortRight : ∀ t ∈ (Phrase.atom behind).tokens, t.Short :=
        List.forall_mem_singleton.mpr (Token.short_ofDigits few')
      exact Phrase.forall_short_join shortLeft shortRight .sub left.length
  have tree : (Phrase.chain (.atom (Token.ofDigits left)) .sub (Token.sign .sub left.length)
      (.atom behind)).expr = .binary .sub (.literal (.number (.int (numberOfDigits left))))
        (.literal (.number (.int (numberOfDigits right)))) := by
    rw [Phrase.expr, Phrase.expr_digits rfl (by rwa [text]), Phrase.expr_digits rfl (by rwa [text]),
      text, text]
  rw [spells.evaluate_of_le (by rw [tree]; exact spans) (by rw [tree]; exact nodes), tree]
  rfl

theorem evaluate_toString (spans : 2 ≤ stack.inner.spanRoom) (nodes : 2 ≤ stack.inner.nodeRoom) {n : Int}
    (short : ¬ (Value.number (.int n)).IsLong) :
    Line.evaluate stack (if n < 0 then "0" ++ toString n else toString n) = .ok (.number (.int n)) := by
  have integer := Text.isInteger_toDigits n.natAbs
  have few : (Nat.toDigits 10 n.natAbs).length ≤ digitLimit := Nat.not_lt.mp short
  by_cases negative : n < 0
  · have line : "0" ++ toString n = String.ofList (['0'] ++ '-' :: Nat.toDigits 10 n.natAbs) := by
      rw [← Value.toList_toString_of_neg negative, String.ofList_append, String.ofList_toList]
    have zero : IsInteger ['0'] := Text.isInteger_toDigits 0
    have value : (numberOfDigits ['0'] : Int) - n.natAbs = n := by
      have nothing : numberOfDigits ['0'] = 0 := rfl
      omega
    rw [if_pos negative, line, evaluate_difference spans nodes zero integer (by decide) few,
      Text.numberOfDigits_toDigits, value]
  · have nonneg : 0 ≤ n := Int.not_lt.mp negative
    have line : toString n = String.ofList (Nat.toDigits 10 n.natAbs) := by
      rw [← Value.toList_toString_of_nonneg nonneg, String.ofList_toList]
    rw [if_neg negative, line, evaluate_digits (Nat.le_of_succ_le spans) (Nat.le_of_succ_le nodes)
      integer few, Text.numberOfDigits_toDigits, Int.natAbs_of_nonneg nonneg]

end Evaluation

theorem text_numberOfDigits (integer : IsInteger digits) (few : digits.length ≤ digitLimit) :
    (Value.number (.int (numberOfDigits digits))).text =
      .ok (String.ofList (withoutZeros (digits.map toAscii))) := by
  have short : ¬ (Value.number (.int (numberOfDigits digits))).IsLong := by
    rw [Value.isLong_int_iff, Int.natAbs_natCast, Nat.not_le]
    exact Text.numberOfDigits_lt few
  have text := Value.toList_toString_of_nonneg (Int.natCast_nonneg (numberOfDigits digits))
  rw [Int.natAbs_natCast, Text.toDigits_numberOfDigits integer.2] at text
  rw [Value.text_int_of_not_isLong short, ← text, String.ofList_toList]

/-- An integer has a text unless it is too long, and this text is a line that comes to the integer, of a
negative one behind a zero. A line of digits comes to the integer that has these digits, and its text has
them in ASCII and no zeros at the front. A line of more digits than the limit, zeros at the front among
them, has no value. -/
theorem evaluate_decimal (stack : Stack) (spans : 2 ≤ stack.inner.spanRoom)
    (nodes : 2 ≤ stack.inner.nodeRoom) :
    (∀ n : Int, ¬ (Value.number (.int n)).IsLong →
      ∃ text, (Value.number (.int n)).text = .ok text ∧
        Line.evaluate stack (if n < 0 then "0" ++ text else text) = .ok (.number (.int n))) ∧
    (∀ line : String, IsInteger line.toList →
      (line.length ≤ digitLimit →
        ∃ n : Nat, n = Nat.ofDigits 10 (line.toList.reverse.map fun c => (digitValue? c).getD 0) ∧
          Line.evaluate stack line = .ok (.number (.int n)) ∧
          (Value.number (.int n)).text = .ok (String.ofList (withoutZeros (line.toList.map toAscii)))) ∧
      (digitLimit < line.length →
        Line.evaluate stack line = .error (.fault (.literalTooLong line.length)))) ∧
    ∀ (n : Int) (fault : Fault), (Value.number (.int n)).text = .error fault ↔
      (Value.number (.int n)).IsLong ∧ fault = .integerTooLong := by
  refine ⟨?_, ?_, fun n fault => Value.text_int_eq_error_iff⟩
  · intro n short
    exact ⟨toString n, Value.text_int_of_not_isLong short, evaluate_toString spans nodes short⟩
  · intro line integer
    obtain ⟨digits, rfl⟩ : ∃ digits, line = String.ofList digits :=
      ⟨line.toList, String.ofList_toList.symm⟩
    rw [String.toList_ofList] at integer ⊢
    rw [String.length_ofList]
    have one : 1 ≤ stack.inner.spanRoom := Nat.le_of_succ_le spans
    refine ⟨fun few => ?_, evaluate_digits_of_lt one integer⟩
    exact ⟨_, Text.numberOfDigits_eq_ofDigits digits,
      evaluate_digits one (Nat.le_of_succ_le nodes) integer few, text_numberOfDigits integer few⟩

/-- A zero and a four of another script and a two are forty-two, and so is the text. A number of 4301
digits has neither a value nor a text. -/
theorem evaluate_decimal_mixed :
    (∃ text, (Value.number (.int (-42))).text = .ok text ∧
      Line.evaluate .empty ("0" ++ text) = .ok (.number (.int (-42)))) ∧
    (∃ n : Nat, n = 42 ∧ Line.evaluate .empty "٠٤2" = .ok (.number (.int n)) ∧
      (Value.number (.int n)).text = .ok "42") ∧
    Line.evaluate .empty (String.ofList (List.replicate 4301 '1')) =
      .error (.fault (.literalTooLong 4301)) ∧
    (Value.number (.int (Nat.pow 10 digitLimit))).text = .error .integerTooLong := by
  have decimal := evaluate_decimal .empty (by decide) (by decide)
  refine ⟨?_, ?_, ?_, ?_⟩
  · exact decimal.1 (-42) (by decide)
  · exact (decimal.2.1 "٠٤2" ⟨by decide, List.all_eq_true.mp (by decide)⟩).1 (by decide)
  · have many := (decimal.2.1 (String.ofList (List.replicate 4301 '1'))
      (by rw [String.toList_ofList]; exact Token.isInteger_replicate 4300)).2
    rw [String.length_ofList, List.length_replicate] at many
    exact many (by decide)
  · exact (decimal.2.2 _ .integerTooLong).mpr
      ⟨Value.isLong_int_iff.mpr (Nat.le_of_eq (Int.natAbs_natCast _).symm), rfl⟩

end Line

end LineCalc
