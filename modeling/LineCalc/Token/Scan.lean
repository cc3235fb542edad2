import LineCalc.Text.Digit
import LineCalc.Text.Blank
import LineCalc.Token

/-! Scanning: a line becomes its tokens.

At each offset the scanner takes what `Lexeme.first?` finds at the front of the remaining text.
The patterns are tried in a fixed order: decimal, integer, identifier, blanks, operators,
parentheses. Blanks are dropped. A text that starts with none of these is refused there. -/

namespace LineCalc

def Text.run? (p : Char → Bool) (cs : List Char) : Option (List Char) :=
  if cs.takeWhile p = [] then none else some (cs.takeWhile p)

def Text.decimal? (cs : List Char) : Option (List Char) :=
  match run? isDigit cs, cs.dropWhile isDigit with
  | some whole, '.' :: rest => (run? isDigit rest).map fun places => whole ++ '.' :: places
  | _, _ => none

def Text.identifier? : List Char → Option (List Char)
  | c :: rest => if c.isAlpha then some (c :: rest.takeWhile Char.isAlphanum) else none
  | [] => none

inductive Lexeme
  | blanks (text : List Char)
  | token (kind : TokenKind) (priority : Int) (text : List Char)
  deriving DecidableEq, Repr

namespace Lexeme

def text : Lexeme → List Char
  | blanks text => text
  | token _ _ text => text

def token? (offset : Nat) : Lexeme → Option Token
  | blanks _ => none
  | token kind priority text => some ⟨String.ofList text, kind, priority, offset⟩

def literal (text : List Char) : Lexeme := token .literal Token.literalPriority text

def operator? (cs : List Char) : Option Lexeme :=
  (Operator.all.find? fun op => op.symbol.toList.isPrefixOf cs).map fun op =>
    token .operator op.priority op.symbol.toList

def delimiter? : List Char → Option Lexeme
  | c :: _ =>
    if c = '(' ∨ c = ')' then some (token .delimiter Token.delimiterPriority [c]) else none
  | [] => none

def first? (cs : List Char) : Option Lexeme :=
  ((Text.decimal? cs).map literal).or <|
  ((Text.run? Text.isDigit cs).map literal).or <|
  ((Text.identifier? cs).map (token .identifier Token.identifierPriority)).or <|
  ((Text.run? Text.isBlank cs).map blanks).or <|
  (operator? cs).or (delimiter? cs)

end Lexeme

theorem Text.run?_ne_nil {p : Char → Bool} {cs run : List Char} (h : run? p cs = some run) :
    run ≠ [] := by
  unfold run? at h
  split at h
  · contradiction
  · next nonempty =>
    have same : cs.takeWhile p = run := Option.some.inj h
    rw [← same]
    exact nonempty

theorem Text.decimal?_ne_nil {cs text : List Char} (h : decimal? cs = some text) : text ≠ [] := by
  unfold decimal? at h
  split at h
  · obtain ⟨places, _, rfl⟩ := Option.map_eq_some_iff.1 h
    simp
  · simp at h

theorem Text.identifier?_ne_nil {cs text : List Char} (h : identifier? cs = some text) :
    text ≠ [] := by
  unfold identifier? at h
  split at h
  · split at h
    · simp only [Option.some.injEq] at h
      simp [← h]
    · simp at h
  · simp at h

namespace Lexeme

theorem operator?_text_ne_nil {cs : List Char} {lexeme : Lexeme} (h : operator? cs = some lexeme) :
    lexeme.text ≠ [] := by
  obtain ⟨op, _, rfl⟩ := Option.map_eq_some_iff.1 h
  cases op <;> simp [text, Operator.symbol]

theorem delimiter?_text_ne_nil {cs : List Char} {lexeme : Lexeme}
    (h : delimiter? cs = some lexeme) : lexeme.text ≠ [] := by
  unfold delimiter? at h
  split at h
  · split at h
    · simp only [Option.some.injEq] at h
      simp [← h, text]
    · simp at h
  · simp at h

theorem first?_text_ne_nil {cs : List Char} {lexeme : Lexeme} (h : first? cs = some lexeme) :
    lexeme.text ≠ [] := by
  simp only [first?, Option.or_eq_some_iff, Option.map_eq_some_iff, Option.map_eq_none_iff] at h
  rcases h with ⟨text, found, rfl⟩ | ⟨_, h⟩
  · exact Text.decimal?_ne_nil found
  rcases h with ⟨text, found, rfl⟩ | ⟨_, h⟩
  · exact Text.run?_ne_nil found
  rcases h with ⟨text, found, rfl⟩ | ⟨_, h⟩
  · exact Text.identifier?_ne_nil found
  rcases h with ⟨text, found, rfl⟩ | ⟨_, h⟩
  · exact Text.run?_ne_nil found
  rcases h with found | ⟨_, found⟩
  · exact operator?_text_ne_nil found
  · exact delimiter?_text_ne_nil found

end Lexeme

namespace Token

def snippetLength : Nat := 10

def scanFrom (offset : Nat) : List Char → Except LexError (List Token)
  | [] => .ok []
  | c :: rest =>
    match _ : Lexeme.first? (c :: rest) with
    | none => .error ⟨offset, String.ofList ((c :: rest).take snippetLength)⟩
    | some lexeme =>
      (scanFrom (offset + lexeme.text.length) ((c :: rest).drop lexeme.text.length)).map
        ((lexeme.token? offset).toList ++ ·)
termination_by cs => cs.length
decreasing_by
  have positive := List.length_pos_iff.2 (Lexeme.first?_text_ne_nil ‹_›)
  simp only [List.length_drop, List.length_cons]
  omega

@[simp] theorem scanFrom_nil (offset : Nat) : scanFrom offset [] = .ok [] := by
  rw [scanFrom]

theorem scanFrom_of_first?_eq_none {cs : List Char} (offset : Nat) (nonempty : cs ≠ [])
    (h : Lexeme.first? cs = none) :
    scanFrom offset cs = .error ⟨offset, String.ofList (cs.take snippetLength)⟩ := by
  cases cs with
  | nil => contradiction
  | cons c rest =>
    rw [scanFrom]
    split
    · rfl
    · next found => rw [h] at found; contradiction

theorem scanFrom_of_first?_eq_some {cs : List Char} {lexeme : Lexeme} (offset : Nat)
    (h : Lexeme.first? cs = some lexeme) :
    scanFrom offset cs =
      (scanFrom (offset + lexeme.text.length) (cs.drop lexeme.text.length)).map
        ((lexeme.token? offset).toList ++ ·) := by
  cases cs with
  | nil => contradiction
  | cons c rest =>
    rw [scanFrom]
    split
    · next found => rw [h] at found; contradiction
    · next other found =>
      have same : other = lexeme := Option.some.inj (found.symm.trans h)
      rw [same]

def scan (line : String) : Except LexError (List Token) :=
  scanFrom 0 line.toList

end Token

end LineCalc
