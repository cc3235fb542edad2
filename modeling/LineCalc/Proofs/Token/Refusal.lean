import LineCalc.Proofs.Token.Layout

/-! Where a line is refused.

Scanning stops at the first offset where nothing is found. What stands before that offset is scanned
on its own as it is in the line, since a text is found also if the line is cut off behind it. What
stands there is a character that no token or gap starts with, whatever is behind it, or a mark that
only has a meaning together with what is next to it. -/

namespace LineCalc

open Text (IsGap Stops)

namespace Text

def isKnown (c : Char) : Bool :=
  isDigit c || c.isAlpha || isBlank c ||
    c ∈ ['(', ')', '<', '>', '=', '+', '-', '*', '/', '%', '^', '!', '.']

theorem run?_cons_eq_none_iff {p : Char → Bool} {c : Char} {rest : List Char} :
    run? p (c :: rest) = none ↔ p c = false := by
  cases h : p c <;> simp [run?, h]

theorem identifier?_cons_eq_none_iff {c : Char} {rest : List Char} :
    identifier? (c :: rest) = none ↔ c.isAlpha = false := by
  simp [identifier?]

end Text

namespace Lexeme

theorem operator?_cons_eq_none_iff {c : Char} {rest : List Char} :
    operator? (c :: rest) = none ↔
      c ∉ ['<', '>', '=', '+', '-', '*', '/', '%', '^'] ∧ (c = '!' → rest.head? ≠ some '=') := by
  have unfound : operator? (c :: rest) = none ↔
      ∀ op : Operator, ¬ op.symbol.toList <+: c :: rest := by
    simp [operator?, List.find?_eq_none, Operator.mem_all]
  rw [unfound]
  constructor
  · intro nothing
    refine ⟨?_, ?_⟩
    · intro symbol
      -- Each of these characters is an operator by itself.
      obtain ⟨op, alone⟩ : ∃ op : Operator, op.symbol.toList = [c] := by
        simp only [List.mem_cons, List.not_mem_nil, or_false] at symbol
        rcases symbol with rfl | rfl | rfl | rfl | rfl | rfl | rfl | rfl | rfl
        exacts [⟨.lt, rfl⟩, ⟨.gt, rfl⟩, ⟨.eq, rfl⟩, ⟨.add, rfl⟩, ⟨.sub, rfl⟩, ⟨.mul, rfl⟩,
          ⟨.div, rfl⟩, ⟨.mod, rfl⟩, ⟨.pow, rfl⟩]
      exact nothing op ⟨rest, by rw [alone]; rfl⟩
    · rintro rfl equal
      obtain ⟨tail, rfl⟩ := List.head?_eq_some_iff.mp equal
      exact nothing .ne ⟨tail, rfl⟩
  · rintro ⟨noSymbol, exclamation⟩ op ⟨tail, same⟩
    cases op <;>
    · simp only [Operator.symbol, String.reduceToList, List.cons_append, List.cons.injEq] at same
      simp [← same.1, ← same.2] at noSymbol exclamation

theorem first?_cons_eq_none_iff {c : Char} {rest : List Char} :
    first? (c :: rest) = none ↔
      Text.isKnown c = false ∨ c = '!' ∧ rest.head? ≠ some '=' ∨ c = '.' := by
  have patterns : first? (c :: rest) = none ↔
      Text.isDigit c = false ∧ c.isAlpha = false ∧ Text.isBlank c = false ∧
        operator? (c :: rest) = none ∧ delimiter? (c :: rest) = none := by
    simp only [first?, Option.or_eq_none_iff, Option.map_eq_none_iff, Text.run?_cons_eq_none_iff,
      Text.identifier?_cons_eq_none_iff]
    constructor
    · rintro ⟨_, digit, rest⟩
      exact ⟨digit, rest⟩
    · rintro ⟨digit, rest⟩
      exact ⟨Text.decimal?_eq_none (Text.stops_cons.mpr digit), digit, rest⟩
  have delimiter : delimiter? (c :: rest) = none ↔ c ∉ ['(', ')'] := by
    simp [delimiter?]
  rw [patterns, operator?_cons_eq_none_iff, delimiter]
  constructor
  · rintro ⟨digit, letter, blank, ⟨symbol, exclamation⟩, parenthesis⟩
    simp only [Text.isKnown, digit, letter, blank]
    grind
  · rintro (unknown | ⟨rfl, alone⟩ | rfl)
    · simp only [Text.isKnown, Bool.or_eq_false_iff, decide_eq_false_iff_not] at unknown
      grind
    · exact ⟨by decide, by decide, by decide, ⟨by decide, fun _ => alone⟩, by decide⟩
    · exact ⟨by decide, by decide, by decide, ⟨by decide, by simp⟩, by decide⟩

/-- Where nothing is found, nothing goes on a gap or a token before it, but for places behind an
integer. -/
theorem stops_of_first?_eq_none {rest : List Char} (nothing : first? rest = none)
    (kind : TokenKind) (text : List Char) :
    Stops Text.isBlank rest ∧ Stops (kind.prolongs text) rest := by
  cases rest with
  | nil => exact ⟨Text.stops_nil _, Text.stops_nil _⟩
  | cons c rest =>
      rw [Text.stops_cons, Text.stops_cons]
      rcases first?_cons_eq_none_iff.mp nothing with unknown | ⟨rfl, _⟩ | rfl
      · simp only [Text.isKnown, Bool.or_eq_false_iff, decide_eq_false_iff_not] at unknown
        rcases unknown with ⟨⟨⟨digit, letter⟩, blank⟩, mark⟩
        refine ⟨blank, Token.prolongs_eq_false kind text digit letter ?_ ?_⟩
        · rintro rfl
          simp at mark
        · rintro rfl
          simp at mark
      · exact ⟨by decide, Token.prolongs_eq_false kind text (by decide) (by decide) (by decide)
          (by decide)⟩
      · exact ⟨by decide, Token.prolongs_eq_false kind text (by decide) (by decide) (by decide)
          (by decide)⟩

theorem stops_of_append {p : Char → Bool} {front rest : List Char} (stop : Stops p (front ++ rest)) :
    Stops p front := by
  cases front with
  | nil => exact Text.stops_nil p
  | cons c front => exact Text.stops_cons.mpr (Text.stops_cons.mp stop)

theorem FoundBefore.cut {lexeme : Lexeme} {front rest : List Char}
    (known : lexeme.FoundBefore (front ++ rest)) : lexeme.FoundBefore front := by
  cases lexeme with
  | blanks gap => exact ⟨known.1, known.2.1, stops_of_append known.2.2⟩
  | token kind priority text =>
      rcases known with ⟨spelled, weighed, stop, noPlaces⟩
      refine ⟨spelled, weighed, stops_of_append stop, ?_⟩
      rintro integer ⟨d, tail, rfl, digit⟩
      exact noPlaces integer ⟨d, tail ++ rest, rfl, digit⟩

end Lexeme

namespace Token

structure EndsBefore (t : Token) (rest : List Char) : Prop where
  stop : Stops (t.kind.prolongs t.text.toList) rest
  noPlaces : Text.IsInteger t.text.toList → ¬ Text.Places rest

def LastEndsBefore (tokens : List Token) (offset : Nat) (rest : List Char) : Prop :=
  ∀ t ∈ tokens.getLast?, t.position + t.text.length = offset → t.EndsBefore rest

theorem Laid.eq_nil {offset : Nat} {before : Option Token} {tokens : List Token}
    (laid : Laid offset before [] tokens) : tokens = [] := by
  generalize empty : ([] : List Char) = cs at laid
  cases laid with
  | last => rfl
  | token _ _ wellFormed _ _ =>
      have texts := List.append_eq_nil_iff.mp empty.symm
      have text := (List.append_eq_nil_iff.mp texts.1).2
      exact absurd text (spells_ne_nil wellFormed.spelled)

/-- What was scanned keeps its tokens if something is put behind it that its last token does not take
in, and scanning goes on there. -/
theorem Laid.scanFrom_append {offset : Nat} {before : Option Token} {front rest : List Char}
    {tokens : List Token} (laid : Laid offset before front tokens) (noBlank : Stops Text.isBlank rest)
    (ends : LastEndsBefore tokens (offset + front.length) rest) :
    scanFrom offset (front ++ rest) =
      (scanFrom (offset + front.length) rest).map (tokens ++ ·) := by
  induction laid with
  | @last offset _ gap isGap =>
      rw [scanFrom_gap offset isGap noBlank]
      cases scanFrom (offset + gap.length) rest <;> rfl
  | @token offset _ gap tail t tokens isGap _ wellFormed position behind ih =>
      rcases List.exists_cons_of_ne_nil (spells_ne_nil wellFormed.spelled) with ⟨c, others, front⟩
      have spelled : t.kind.Spells (c :: others) := front ▸ wellFormed.spelled
      have noBlankFirst : Stops Text.isBlank (t.text.toList ++ (tail ++ rest)) := by
        rw [front]
        exact Text.stops_cons.mpr (front_of_spells spelled).1
      have length : offset + (gap ++ t.text.toList ++ tail).length =
          offset + gap.length + t.text.toList.length + tail.length := by
        simp only [List.length_append]
        omega
      rw [length] at ends ⊢
      have endsFirst : t.EndsBefore (tail ++ rest) := by
        cases tail with
        | nil =>
            rw [List.nil_append]
            apply ends t
            · simp [behind.eq_nil]
            · rw [position, ← String.length_toList]
              simp
        | cons d tail =>
            have stops := behind.stops
            refine ⟨Text.stops_cons.mpr (Text.stops_cons.mp stops.1), fun _ => ?_⟩
            exact Text.not_places_of_stops (Text.stops_cons.mpr (Text.stops_cons.mp stops.2))
      have endsLater : LastEndsBefore tokens
          (offset + gap.length + t.text.toList.length + tail.length) rest := by
        intro u last
        apply ends u
        rw [List.getLast?_cons, Option.mem_def.mp last]
        rfl
      rw [List.append_assoc, List.append_assoc, scanFrom_gap offset isGap noBlankFirst,
        scanFrom_token wellFormed position endsFirst.stop endsFirst.noPlaces, ih endsLater]
      cases scanFrom (offset + gap.length + t.text.toList.length + tail.length) rest <;> rfl

theorem LastEndsBefore.prepend {tokens : List Token} {offset : Nat} {lexeme : Lexeme}
    {front rest : List Char} (known : lexeme.FoundBefore (front ++ rest))
    (ends : LastEndsBefore tokens (offset + lexeme.text.length + front.length) rest) :
    LastEndsBefore ((lexeme.token? offset).toList ++ tokens)
      (offset + lexeme.text.length + front.length) rest := by
  cases lexeme with
  | blanks gap => exact ends
  | token kind priority text =>
      cases tokens with
      | cons u tokens => exact ends
      | nil =>
          intro t last reaches
          simp only [Lexeme.token?, Option.toList_some, List.append_nil, List.getLast?_singleton,
            Option.mem_some_iff] at last
          subst last
          rcases known with ⟨_, _, stop, noPlaces⟩
          -- The token reaches up to the rest, so nothing stands between them.
          obtain rfl : front = [] := by
            apply List.length_eq_zero_iff.mp
            simp only [String.length_ofList, Lexeme.text] at reaches
            omega
          constructor
          · rwa [String.toList_ofList]
          · rwa [String.toList_ofList]

theorem exists_front_of_scanFrom_error {offset : Nat} {cs : List Char} {e : LexError}
    (refused : scanFrom offset cs = .error e) :
    ∃ front rest tokens, cs = front ++ rest ∧ rest ≠ [] ∧ Lexeme.first? rest = none ∧
      scanFrom offset front = .ok tokens ∧ LastEndsBefore tokens (offset + front.length) rest ∧
      e = ⟨(offset + front.length : Nat), String.ofList (rest.take snippetLength)⟩ := by
  induction offset, cs using scanFrom.induct with
  | case1 offset =>
      rw [scanFrom_nil] at refused
      contradiction
  | case2 offset c rest nothing =>
      rw [scanFrom_of_first?_eq_none offset (by simp) nothing] at refused
      refine ⟨[], c :: rest, [], rfl, by simp, nothing, scanFrom_nil offset, ?_, ?_⟩
      · simp [LastEndsBefore]
      · exact (Except.error.inj refused).symm
  | case3 offset c rest lexeme found ih =>
      rcases Lexeme.first?_eq_some found with ⟨behind, split, known⟩
      rw [scanFrom_of_first?_eq_some offset found] at refused
      rw [split, List.drop_left] at refused ih
      obtain ⟨front, rest, tokens, rfl, nonempty, nothing, scanned, ends, rfl⟩ :=
        ih (error_of_map_eq_error refused)
      have foundFirst : Lexeme.first? (lexeme.text ++ front) = some lexeme :=
        Lexeme.first?_eq_some_iff.mpr ⟨front, rfl, known.cut⟩
      have length : offset + (lexeme.text ++ front).length =
          offset + lexeme.text.length + front.length := by
        rw [List.length_append, Nat.add_assoc]
      refine ⟨lexeme.text ++ front, rest, (lexeme.token? offset).toList ++ tokens, ?_, nonempty,
        nothing, ?_, ?_, ?_⟩
      · rw [split, List.append_assoc]
      · rw [scanFrom_of_first?_eq_some offset foundFirst, List.drop_left, scanned]
        rfl
      · rw [length]
        exact ends.prepend known
      · rw [length]

def EndInInteger (tokens : List Token) (offset : Nat) : Prop :=
  ∃ t ∈ tokens.getLast?, t.kind = .literal ∧ Text.IsInteger t.text.toList ∧
    t.position + t.text.length = offset

/-- No token and no gap starts with what stands at an offset of a line, behind some tokens: it is an
unknown character, an exclamation mark that is not the start of an operator, or a point that is not
within a decimal. -/
inductive Blocked (tokens : List Token) (offset : Nat) : List Char → Prop
  | unknown {c : Char} {rest : List Char} (unknown : Text.isKnown c = false) :
      Blocked tokens offset (c :: rest)
  | exclamation {rest : List Char} (alone : rest.head? ≠ some '=') :
      Blocked tokens offset ('!' :: rest)
  | point {rest : List Char}
      (apart : ¬ (EndInInteger tokens offset ∧ ∃ d ∈ rest.head?, Text.isDigit d = true)) :
      Blocked tokens offset ('.' :: rest)

structure RefusedAt (line : String) (offset : Nat) : Prop where
  inside : offset < line.length
  blocked : ∃ tokens, scan (String.ofList (line.toList.take offset)) = .ok tokens ∧
    Blocked tokens offset (line.toList.drop offset)

variable {tokens : List Token} {offset : Nat} {rest : List Char}

theorem Blocked.first?_eq_none (blocked : Blocked tokens offset rest) :
    Lexeme.first? rest = none := by
  cases blocked with
  | unknown unknown => exact Lexeme.first?_cons_eq_none_iff.mpr (.inl unknown)
  | exclamation alone => exact Lexeme.first?_cons_eq_none_iff.mpr (.inr (.inl ⟨rfl, alone⟩))
  | point apart => exact Lexeme.first?_cons_eq_none_iff.mpr (.inr (.inr rfl))

theorem Blocked.ne_nil (blocked : Blocked tokens offset rest) : rest ≠ [] := by
  cases blocked <;> simp

theorem Blocked.lastEndsBefore (blocked : Blocked tokens offset rest)
    (wellFormed : ∀ t ∈ tokens, t.WellFormed) : LastEndsBefore tokens offset rest := by
  intro t last reaches
  refine ⟨(Lexeme.stops_of_first?_eq_none blocked.first?_eq_none _ _).2, ?_⟩
  rintro integer ⟨d, tail, rfl, digit⟩
  cases blocked with
  | unknown unknown => exact absurd unknown (by decide)
  | point apart =>
      have spelled := (wellFormed t (List.mem_of_getLast? last)).spelled
      rcases List.exists_cons_of_ne_nil integer.1 with ⟨c, others, front⟩
      rw [front] at spelled
      have kind := kind_eq_literal spelled (integer.2 c (by simp [front]))
      exact apart ⟨⟨t, last, kind, integer, reaches⟩, d, rfl, digit⟩

theorem blocked_of_first?_eq_none (nonempty : rest ≠ []) (nothing : Lexeme.first? rest = none)
    (ends : LastEndsBefore tokens offset rest) : Blocked tokens offset rest := by
  rcases List.exists_cons_of_ne_nil nonempty with ⟨c, tail, rfl⟩
  rcases Lexeme.first?_cons_eq_none_iff.mp nothing with unknown | ⟨rfl, alone⟩ | rfl
  · exact .unknown unknown
  · exact .exclamation alone
  · refine .point ?_
    rintro ⟨⟨t, last, _, integer, reaches⟩, d, front, digit⟩
    rcases List.head?_eq_some_iff.mp front with ⟨others, rfl⟩
    exact (ends t last reaches).noPlaces integer ⟨d, others, rfl, digit⟩

theorem scan_ofList (cs : List Char) : scan (String.ofList cs) = scanFrom 0 cs := by
  rw [scan, String.toList_ofList]

theorem scan_eq_error_iff {line : String} {e : LexError} :
    scan line = .error e ↔
      ∃ offset : Nat, RefusedAt line offset ∧
        e = ⟨offset, String.ofList ((line.toList.drop offset).take snippetLength)⟩ := by
  constructor
  · intro refused
    obtain ⟨front, rest, tokens, split, nonempty, nothing, scanned, ends, rfl⟩ :=
      exists_front_of_scanFrom_error refused
    rw [Nat.zero_add] at ends ⊢
    have takeFront : line.toList.take front.length = front := by rw [split, List.take_left]
    have dropFront : line.toList.drop front.length = rest := by rw [split, List.drop_left]
    have inside : front.length < line.length := by
      have positive := List.length_pos_iff.mpr nonempty
      rw [← String.length_toList, split, List.length_append]
      omega
    refine ⟨front.length, ⟨inside, tokens, ?_, ?_⟩, by rw [dropFront]⟩
    · rw [takeFront, scan_ofList, scanned]
    · rw [dropFront]
      exact blocked_of_first?_eq_none nonempty nothing ends
  · rintro ⟨offset, ⟨inside, tokens, scanned, blocked⟩, rfl⟩
    have laid := scan_eq_ok_iff.mp scanned
    rw [String.toList_ofList] at laid
    have length : (line.toList.take offset).length = offset := by
      rw [List.length_take, String.length_toList]
      omega
    have ends := blocked.lastEndsBefore laid.wellFormed
    have noBlank := (Lexeme.stops_of_first?_eq_none blocked.first?_eq_none .literal []).1
    have appended := laid.scanFrom_append noBlank (by rwa [length, Nat.zero_add])
    rw [List.take_append_drop, length, Nat.zero_add,
      scanFrom_of_first?_eq_none offset blocked.ne_nil blocked.first?_eq_none] at appended
    exact appended

/-- A line is refused at an offset exactly if what stands before is scanned and nothing can be made of
what stands there. There is at most one such offset, and none exactly if the line is scanned. The
refusal shows ten characters from there on. -/
theorem scan_refused_iff (line : String) :
    (∀ offset : Nat, (∃ e, scan line = .error e ∧ e.position = offset) ↔ RefusedAt line offset) ∧
    (∀ first second, RefusedAt line first → RefusedAt line second → first = second) ∧
    ((∃ tokens, scan line = .ok tokens) ↔ ∀ offset, ¬ RefusedAt line offset) ∧
    ∀ e, scan line = .error e →
      ∃ offset : Nat, e.position = offset ∧
        e.snippet = String.ofList ((line.toList.drop offset).take 10) := by
  have located (offset : Nat) (refused : RefusedAt line offset) :
      ∃ e, scan line = .error e ∧ e.position = offset :=
    ⟨_, scan_eq_error_iff.mpr ⟨offset, refused, rfl⟩, rfl⟩
  refine ⟨?_, ?_, ?_, ?_⟩
  · intro offset
    refine ⟨?_, located offset⟩
    rintro ⟨e, refused, place⟩
    obtain ⟨found, refusedAt, rfl⟩ := scan_eq_error_iff.mp refused
    rwa [← Int.ofNat_inj.mp place]
  · intro first second refusedFirst refusedSecond
    obtain ⟨e, refused, place⟩ := located first refusedFirst
    obtain ⟨e', refused', place'⟩ := located second refusedSecond
    cases refused.symm.trans refused'
    exact Int.ofNat_inj.mp (place.symm.trans place')
  · constructor
    · rintro ⟨tokens, scanned⟩ offset refusedAt
      obtain ⟨e, refused, _⟩ := located offset refusedAt
      cases scanned.symm.trans refused
    · intro nowhere
      cases scanned : scan line with
      | ok tokens => exact ⟨tokens, rfl⟩
      | error e =>
          obtain ⟨offset, refusedAt, _⟩ := scan_eq_error_iff.mp scanned
          exact absurd refusedAt (nowhere offset)
  · intro e refused
    obtain ⟨offset, _, rfl⟩ := scan_eq_error_iff.mp refused
    exact ⟨offset, rfl, rfl⟩

/-- Of the two points in `3.5+2.x` the first is within a decimal and the second is refused. -/
theorem scan_refused_iff_points :
    RefusedAt "3.5+2.x" 5 ∧ (∀ offset, RefusedAt "3.5+2.x" offset → offset = 5) ∧
      ∃ offset : Nat, (5 : Int) = offset ∧
        ".x" = String.ofList (("3.5+2.x".toList.drop offset).take 10) := by
  have refused : scan "3.5+2.x" = .error ⟨5, ".x"⟩ := by decide +kernel
  obtain ⟨located, unique, _, shown⟩ := scan_refused_iff "3.5+2.x"
  have refusedAt := (located 5).mp ⟨_, refused, rfl⟩
  exact ⟨refusedAt, fun offset other => unique offset 5 other refusedAt, shown _ refused⟩

end Token

end LineCalc
