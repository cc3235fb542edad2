import LineCalc.Proofs.Token.Pattern

namespace LineCalc

open Text (IsGap Stops)

def TokenKind.prolongs : TokenKind → List Char → Char → Bool
  | literal, _, c => Text.isDigit c
  | identifier, _, c => c.isAlphanum
  | operator, text, c =>
    text = ['<'] && (c = '-' || c = '=') || text = ['>'] && c = '='
  | delimiter, _, _ => false

namespace Lexeme

theorem first?_of_no_digit {cs : List Char} (noDigit : Stops Text.isDigit cs) :
    first? cs = ((Text.identifier? cs).map (token .identifier Token.identifierPriority)).or
      (((Text.run? Text.isBlank cs).map blanks).or ((operator? cs).or (delimiter? cs))) := by
  simp [first?, Text.decimal?_eq_none noDigit, Text.run?_eq_none noDigit]

theorem first?_of_no_letter {cs : List Char} (noDigit : Stops Text.isDigit cs)
    (noLetter : Stops Char.isAlpha cs) :
    first? cs = ((Text.run? Text.isBlank cs).map blanks).or ((operator? cs).or (delimiter? cs)) := by
  simp [first?_of_no_digit noDigit, Text.identifier?_eq_none noLetter]

theorem first?_of_no_blank {cs : List Char} (noDigit : Stops Text.isDigit cs)
    (noLetter : Stops Char.isAlpha cs) (noBlank : Stops Text.isBlank cs) :
    first? cs = (operator? cs).or (delimiter? cs) := by
  simp [first?_of_no_letter noDigit noLetter, Text.run?_eq_none noBlank]

theorem first?_gap {gap rest : List Char} (nonempty : gap ≠ []) (isGap : IsGap gap)
    (stop : Stops Text.isBlank rest) : first? (gap ++ rest) = some (blanks gap) := by
  rcases List.exists_cons_of_ne_nil nonempty with ⟨c, tail, rfl⟩
  have blank : Text.isBlank c = true := isGap c (by simp)
  rw [first?_of_no_letter, Text.run?_append nonempty isGap stop]
  · rfl
  · exact Text.stops_cons.mpr (Text.isDigit_of_isBlank blank)
  · exact Text.stops_cons.mpr (Text.isAlpha_of_isBlank blank)

theorem first?_literal {text rest : List Char} (spelled : TokenKind.literal.Spells text)
    (stop : Stops Text.isDigit rest) (noPlaces : Text.IsInteger text → ¬ Text.Places rest) :
    first? (text ++ rest) = some (literal text) := by
  rcases spelled with decimal | integer
  · simp [first?, Text.decimal?_append decimal stop]
  · simp [first?, (Text.decimal?_eq_none_iff_of_digits integer stop).mpr (noPlaces integer),
      Text.run?_append integer.1 integer.2 stop]

theorem first?_identifier {text rest : List Char} (identifier : Text.IsIdentifier text)
    (stop : Stops Char.isAlphanum rest) :
    first? (text ++ rest) = some (token .identifier Token.identifierPriority text) := by
  have noDigit : Stops Text.isDigit (text ++ rest) := by
    rcases identifier with ⟨c, tail, rfl, letter, _⟩
    exact Text.stops_cons.mpr (Text.isDigit_of_isAlpha letter)
  rw [first?_of_no_digit noDigit, Text.identifier?_append identifier stop]
  rfl

/-- Of the operators, the one whose text is not prolonged is found: a symbol of two characters is
tried before the one-character symbol that it starts with. -/
theorem find?_symbol (op : Operator) {rest : List Char}
    (stop : Stops (TokenKind.operator.prolongs op.symbol.toList) rest) :
    Operator.all.find? (fun other => other.symbol.toList.isPrefixOf (op.symbol.toList ++ rest)) =
      some op := by
  cases op
  case lt =>
    cases rest with
    | nil => simp [Operator.all, Operator.symbol, List.find?, List.isPrefixOf]
    | cons c rest =>
        simp only [Text.stops_cons, TokenKind.prolongs, Operator.symbol] at stop
        have noMinus : ('-' == c) = false := by grind
        have noEqual : ('=' == c) = false := by grind
        simp [Operator.all, Operator.symbol, List.find?, List.isPrefixOf, noMinus, noEqual]
  case gt =>
    cases rest with
    | nil => simp [Operator.all, Operator.symbol, List.find?, List.isPrefixOf]
    | cons c rest =>
        simp only [Text.stops_cons, TokenKind.prolongs, Operator.symbol] at stop
        have noEqual : ('=' == c) = false := by grind
        simp [Operator.all, Operator.symbol, List.find?, List.isPrefixOf, noEqual]
  all_goals simp [Operator.all, Operator.symbol, List.find?, List.isPrefixOf]

theorem operator?_append (op : Operator) {rest : List Char}
    (stop : Stops (TokenKind.operator.prolongs op.symbol.toList) rest) :
    operator? (op.symbol.toList ++ rest) = some (token .operator op.priority op.symbol.toList) := by
  rw [operator?, find?_symbol op stop]
  rfl

theorem symbol_stops (op : Operator) (rest : List Char) :
    Stops Text.isDigit (op.symbol.toList ++ rest) ∧ Stops Char.isAlphanum (op.symbol.toList ++ rest) ∧
      Stops Text.isBlank (op.symbol.toList ++ rest) ∧ Stops (· = '.') (op.symbol.toList ++ rest) := by
  cases op <;> simp only [Operator.symbol, String.reduceToList, List.cons_append, Text.stops_cons] <;>
    decide

theorem not_isInteger_symbol (op : Operator) : ¬ Text.IsInteger op.symbol.toList := by
  intro integer
  rcases List.exists_cons_of_ne_nil integer.1 with ⟨c, tail, front⟩
  have noDigit := (symbol_stops op []).1
  rw [List.append_nil, front, Text.stops_cons] at noDigit
  have digit := integer.2 c (by simp [front])
  simp [noDigit] at digit

theorem stops_isAlpha {cs : List Char} (stop : Stops Char.isAlphanum cs) :
    Stops Char.isAlpha cs := by
  intro c member
  have := stop c member
  simp only [Char.isAlphanum, Bool.or_eq_false_iff] at this
  exact this.1

theorem first?_operator (op : Operator) {rest : List Char}
    (stop : Stops (TokenKind.operator.prolongs op.symbol.toList) rest) :
    first? (op.symbol.toList ++ rest) =
      some (token .operator op.priority op.symbol.toList) := by
  rcases symbol_stops op rest with ⟨noDigit, noLetter, noBlank, _⟩
  rw [first?_of_no_blank noDigit (stops_isAlpha noLetter) noBlank, operator?_append op stop]
  rfl

theorem first?_delimiter {c : Char} (rest : List Char) (parenthesis : c = '(' ∨ c = ')') :
    first? (c :: rest) = some (token .delimiter Token.delimiterPriority [c]) := by
  rw [first?_of_no_blank]
  · rcases parenthesis with rfl | rfl <;>
      simp [operator?, delimiter?, Operator.all, Operator.symbol, List.find?, List.isPrefixOf]
  all_goals
    apply Text.stops_cons.mpr
    rcases parenthesis with rfl | rfl <;> decide

/-- The text of a token is found where nothing behind it prolongs it and, if it is an integer, no
places make a decimal of it. -/
theorem first?_append {kind : TokenKind} {priority : Int} {text rest : List Char}
    (spelled : kind.Spells text)
    (weighed : Token.priority? kind (String.ofList text) = some priority)
    (stop : Stops (kind.prolongs text) rest)
    (noPlaces : Text.IsInteger text → ¬ Text.Places rest) :
    first? (text ++ rest) = some (token kind priority text) := by
  cases kind with
  | literal =>
      cases weighed
      exact first?_literal spelled stop noPlaces
  | identifier =>
      cases weighed
      exact first?_identifier spelled stop
  | operator =>
      rcases spelled with ⟨op, rfl⟩
      rw [Token.priority?, String.ofList_toList, Operator.ofSymbol?_symbol] at weighed
      cases weighed
      exact first?_operator op stop
  | delimiter =>
      cases weighed
      rcases spelled with rfl | rfl
      · exact first?_delimiter rest (.inl rfl)
      · exact first?_delimiter rest (.inr rfl)

theorem operator?_eq_some {cs : List Char} {lexeme : Lexeme} (h : operator? cs = some lexeme) :
    ∃ (op : Operator) (rest : List Char), cs = op.symbol.toList ++ rest ∧
      Stops (TokenKind.operator.prolongs op.symbol.toList) rest ∧
      lexeme = token .operator op.priority op.symbol.toList := by
  rcases Option.map_eq_some_iff.mp h with ⟨op, found, rfl⟩
  have start := List.find?_some found
  rcases List.isPrefixOf_iff_prefix.mp start with ⟨rest, rfl⟩
  refine ⟨op, rest, rfl, ?_, rfl⟩
  -- Were the symbol prolonged, the longer symbol would have been found in its place.
  have unfound (longer : Operator) (tail : List Char)
      (same : op.symbol.toList ++ rest = longer.symbol.toList ++ tail)
      (stop : Stops (TokenKind.operator.prolongs longer.symbol.toList) tail) : longer = op := by
    rw [same, find?_symbol longer stop] at found
    exact Option.some.inj found
  intro c member
  rcases List.head?_eq_some_iff.mp member with ⟨tail, rfl⟩
  apply Bool.eq_false_iff.mpr
  intro prolonged
  simp only [TokenKind.prolongs, Bool.or_eq_true, Bool.and_eq_true, decide_eq_true_eq] at prolonged
  rcases prolonged with ⟨less, rfl | rfl⟩ | ⟨greater, rfl⟩
  · have := unfound .assign tail (by rw [less]; simp [Operator.symbol])
      (by simp [Stops, TokenKind.prolongs, Operator.symbol])
    simp [← this, Operator.symbol] at less
  · have := unfound .le tail (by rw [less]; simp [Operator.symbol])
      (by simp [Stops, TokenKind.prolongs, Operator.symbol])
    simp [← this, Operator.symbol] at less
  · have := unfound .ge tail (by rw [greater]; simp [Operator.symbol])
      (by simp [Stops, TokenKind.prolongs, Operator.symbol])
    simp [← this, Operator.symbol] at greater

def FoundBefore (rest : List Char) : Lexeme → Prop
  | blanks gap => gap ≠ [] ∧ IsGap gap ∧ Stops Text.isBlank rest
  | token kind priority text =>
    kind.Spells text ∧ Token.priority? kind (String.ofList text) = some priority ∧
      Stops (kind.prolongs text) rest ∧ (Text.IsInteger text → ¬ Text.Places rest)

theorem first?_eq_some {cs : List Char} {lexeme : Lexeme} (h : first? cs = some lexeme) :
    ∃ rest, cs = lexeme.text ++ rest ∧ lexeme.FoundBefore rest := by
  simp only [first?, Option.or_eq_some_iff, Option.map_eq_some_iff, Option.map_eq_none_iff] at h
  rcases h with ⟨text, found, rfl⟩ | ⟨noDecimal, h⟩
  · rcases Text.decimal?_eq_some found with ⟨rest, rfl, decimal, stop⟩
    refine ⟨rest, rfl, .inl decimal, rfl, stop, ?_⟩
    intro integer
    exact absurd integer (Text.not_isInteger_of_isDecimal decimal)
  rcases h with ⟨text, found, rfl⟩ | ⟨_, h⟩
  · rcases Text.run?_eq_some found with ⟨rest, rfl, nonempty, digits, stop⟩
    refine ⟨rest, rfl, .inr ⟨nonempty, digits⟩, rfl, stop, ?_⟩
    intro integer
    exact (Text.decimal?_eq_none_iff_of_digits integer stop).mp noDecimal
  rcases h with ⟨text, found, rfl⟩ | ⟨_, h⟩
  · rcases Text.identifier?_eq_some found with ⟨rest, rfl, identifier, stop⟩
    refine ⟨rest, rfl, identifier, rfl, stop, ?_⟩
    intro integer
    rcases identifier with ⟨c, tail, rfl, letter, _⟩
    have digit := integer.2 c (by simp)
    simp [Text.isDigit_of_isAlpha letter] at digit
  rcases h with ⟨text, found, rfl⟩ | ⟨_, h⟩
  · rcases Text.run?_eq_some found with ⟨rest, rfl, nonempty, isGap, stop⟩
    exact ⟨rest, rfl, nonempty, isGap, stop⟩
  rcases h with found | ⟨_, found⟩
  · rcases operator?_eq_some found with ⟨op, rest, rfl, stop, rfl⟩
    refine ⟨rest, rfl, ⟨op, rfl⟩, by simp [Token.priority?], stop, ?_⟩
    intro integer
    exact absurd integer (not_isInteger_symbol op)
  · cases cs with
    | nil => contradiction
    | cons c rest =>
        simp only [delimiter?, Option.ite_none_right_eq_some, Option.some.injEq] at found
        rcases found with ⟨parenthesis, rfl⟩
        refine ⟨rest, rfl, by simpa [TokenKind.Spells] using parenthesis, rfl, ?_, ?_⟩
        · intro d _
          rfl
        · intro integer
          have digit := integer.2 c (by simp)
          rcases parenthesis with rfl | rfl <;> exact absurd digit (by decide)

theorem first?_eq_some_iff {cs : List Char} {lexeme : Lexeme} :
    first? cs = some lexeme ↔ ∃ rest, cs = lexeme.text ++ rest ∧ lexeme.FoundBefore rest := by
  constructor
  · exact first?_eq_some
  · rintro ⟨rest, rfl, known⟩
    cases lexeme with
    | blanks gap => exact first?_gap known.1 known.2.1 known.2.2
    | token kind priority text =>
        rcases known with ⟨spelled, weighed, stop, noPlaces⟩
        exact first?_append spelled weighed stop noPlaces

end Lexeme

end LineCalc
