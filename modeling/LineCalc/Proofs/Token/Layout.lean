import LineCalc.Proofs.Basic
import LineCalc.Proofs.Token.Front

/-! Scanning and the layout of a line.

A line is laid out as its tokens if it consists of their texts, with gaps around them that hold
nothing but blanks, and a gap is left wherever two texts would run together. Scanning finds exactly
the tokens that a line is laid out as. -/

namespace LineCalc

open Text (IsGap Stops)

namespace Token

/-- Two tokens whose texts would run together if nothing stood between them. -/
inductive Clash (t u : Token) : Prop
  | literals (left : t.kind = .literal) (right : u.kind = .literal)
  | identifiers (left : t.kind = .identifier) (right : u.kind = .identifier)
  | identifierDigit (left : t.kind = .identifier) (right : u.kind = .literal)
      (digit : ∃ c ∈ u.text.toList.head?, c.isDigit = true)
  | operators (left : t.kind = .operator) (right : u.kind = .operator)
      (symbols : (t.text, u.text) ∈ [("<", "-"), ("<", "="), (">", "=")])

/-- A text that stands at an offset of its line, behind the token `before` if there is one, is laid
out as some tokens: a gap, then the first of them and what follows it, or only a gap. -/
inductive Laid : (offset : Nat) → (before : Option Token) → List Char → List Token → Prop
  | last {offset : Nat} {before : Option Token} {gap : List Char} (isGap : IsGap gap) :
      Laid offset before gap []
  | token {offset : Nat} {before : Option Token} {gap rest : List Char} {t : Token}
      {tokens : List Token} (isGap : IsGap gap)
      (apart : gap = [] → ∀ p ∈ before, ¬ p.Clash t)
      (wellFormed : t.WellFormed)
      (position : t.position = (offset + gap.length : Nat))
      (behind : Laid (offset + gap.length + t.text.toList.length) (some t) rest tokens) :
      Laid offset before (gap ++ t.text.toList ++ rest) (t :: tokens)

theorem front_of_literal {c : Char} {tail : List Char}
    (spelled : TokenKind.literal.Spells (c :: tail)) : Text.isDigit c = true := by
  rcases spelled with ⟨whole, places, ⟨nonempty, digits⟩, _, same⟩ | ⟨_, digits⟩
  · rcases List.exists_cons_of_ne_nil nonempty with ⟨d, others, rfl⟩
    cases same
    exact digits c (by simp)
  · exact digits c (by simp)

theorem front_of_identifier {c : Char} {tail : List Char}
    (spelled : TokenKind.identifier.Spells (c :: tail)) : c.isAlpha = true := by
  rcases spelled with ⟨_, _, same, letter, _⟩
  cases same
  exact letter

theorem front_of_delimiter {c : Char} {tail : List Char}
    (spelled : TokenKind.delimiter.Spells (c :: tail)) : c = '(' ∨ c = ')' := by
  rcases spelled with same | same
  · cases same
    exact .inl rfl
  · cases same
    exact .inr rfl

theorem front_of_operator {c : Char} {tail : List Char}
    (spelled : TokenKind.operator.Spells (c :: tail)) :
    Text.isDigit c = false ∧ c.isAlphanum = false ∧ Text.isBlank c = false ∧ c ≠ '.' := by
  rcases spelled with ⟨op, same⟩
  have stops := Lexeme.symbol_stops op []
  rw [List.append_nil, ← same] at stops
  simpa [Text.stops_cons] using stops

theorem spells_ne_nil {kind : TokenKind} {text : List Char} (spelled : kind.Spells text) :
    text ≠ [] := by
  rintro rfl
  cases kind with
  | literal => simp [TokenKind.Spells, Text.IsDecimal, Text.IsInteger] at spelled
  | identifier => simp [TokenKind.Spells, Text.IsIdentifier] at spelled
  | operator =>
      rcases spelled with ⟨op, same⟩
      cases op <;> simp [Operator.symbol] at same
  | delimiter => simp [TokenKind.Spells] at spelled

theorem front_of_spells {kind : TokenKind} {c : Char} {tail : List Char}
    (spelled : kind.Spells (c :: tail)) : Text.isBlank c = false ∧ c ≠ '.' := by
  cases kind with
  | literal =>
      have digit := front_of_literal spelled
      constructor
      · apply Bool.eq_false_iff.mpr
        intro blank
        simp [Text.isDigit_of_isBlank blank] at digit
      · rintro rfl
        exact absurd digit (by decide)
  | identifier =>
      have letter := front_of_identifier spelled
      constructor
      · apply Bool.eq_false_iff.mpr
        intro blank
        simp [Text.isAlpha_of_isBlank blank] at letter
      · rintro rfl
        exact absurd letter (by decide)
  | operator => exact (front_of_operator spelled).2.2
  | delimiter =>
      rcases front_of_delimiter spelled with rfl | rfl <;> decide

theorem prolongs_eq_false (kind : TokenKind) (text : List Char) {c : Char}
    (noDigit : Text.isDigit c = false) (noLetter : c.isAlpha = false) (noMinus : c ≠ '-')
    (noEqual : c ≠ '=') : kind.prolongs text c = false := by
  cases kind with
  | literal => exact noDigit
  | identifier =>
      have noAsciiDigit : c.isDigit = false := by
        apply Bool.eq_false_iff.mpr
        intro digit
        simp [Text.isDigit_of_isAsciiDigit digit] at noDigit
      simp [TokenKind.prolongs, Char.isAlphanum, noLetter, noAsciiDigit]
  | operator => simp [TokenKind.prolongs, noMinus, noEqual]
  | delimiter => rfl

theorem prolongs_of_isBlank (kind : TokenKind) (text : List Char) {c : Char}
    (blank : Text.isBlank c = true) : kind.prolongs text c = false := by
  apply prolongs_eq_false kind text (Text.isDigit_of_isBlank blank) (Text.isAlpha_of_isBlank blank)
  · rintro rfl
    exact absurd blank (by decide)
  · rintro rfl
    exact absurd blank (by decide)

theorem kind_eq_literal {kind : TokenKind} {c : Char} {tail : List Char}
    (spelled : kind.Spells (c :: tail)) (digit : Text.isDigit c = true) : kind = .literal := by
  cases kind with
  | literal => rfl
  | identifier => simp [Text.isDigit_of_isAlpha (front_of_identifier spelled)] at digit
  | operator => simp [(front_of_operator spelled).1] at digit
  | delimiter => rcases front_of_delimiter spelled with rfl | rfl <;> exact absurd digit (by decide)

theorem kind_eq_identifier {kind : TokenKind} {c : Char} {tail : List Char}
    (spelled : kind.Spells (c :: tail)) (letter : c.isAlpha = true) : kind = .identifier := by
  cases kind with
  | literal =>
      have digit := front_of_literal spelled
      simp [Text.isDigit_of_isAlpha letter] at digit
  | identifier => rfl
  | operator =>
      have noLetter := (front_of_operator spelled).2.1
      simp [Char.isAlphanum, letter] at noLetter
  | delimiter => rcases front_of_delimiter spelled with rfl | rfl <;> exact absurd letter (by decide)

theorem kind_eq_operator {kind : TokenKind} {c : Char} {tail : List Char}
    (spelled : kind.Spells (c :: tail)) (sign : c = '-' ∨ c = '=') : kind = .operator := by
  cases kind with
  | literal =>
      have digit := front_of_literal spelled
      rcases sign with rfl | rfl <;> exact absurd digit (by decide)
  | identifier =>
      have letter := front_of_identifier spelled
      rcases sign with rfl | rfl <;> exact absurd letter (by decide)
  | operator => rfl
  | delimiter =>
      rcases front_of_delimiter spelled with rfl | rfl <;> simp at sign

theorem text_eq_of_front {text : String} {c : Char} {tail : List Char}
    (spelled : TokenKind.operator.Spells text.toList) (front : text.toList = c :: tail)
    (sign : c = '-' ∨ c = '=') : text = String.singleton c := by
  rcases spelled with ⟨op, same⟩
  obtain rfl : text = op.symbol := String.toList_inj.mp same
  rcases sign with rfl | rfl <;> cases op <;> simp_all [Operator.symbol]

theorem clash_iff {t u : Token} {c : Char} {tail : List Char} (right : u.WellFormed)
    (front : u.text.toList = c :: tail) :
    t.Clash u ↔ t.kind.prolongs t.text.toList c = true := by
  have spelled : u.kind.Spells (c :: tail) := front ▸ right.spelled
  constructor
  · rintro (⟨left, kind⟩ | ⟨left, kind⟩ | ⟨left, kind, d, digit, ascii⟩ | ⟨left, kind, symbols⟩)
    · rw [kind] at spelled
      rw [left]
      exact front_of_literal spelled
    · rw [kind] at spelled
      rw [left]
      simp [TokenKind.prolongs, Char.isAlphanum, front_of_identifier spelled]
    · rw [front] at digit
      cases digit
      rw [left]
      simp [TokenKind.prolongs, Char.isAlphanum, ascii]
    · simp only [List.mem_cons, Prod.mk.injEq, List.not_mem_nil, or_false] at symbols
      rcases symbols with ⟨symbol, sign⟩ | ⟨symbol, sign⟩ | ⟨symbol, sign⟩ <;>
      · simp only [sign, String.reduceToList, List.cons.injEq] at front
        simp [left, symbol, ← front.1, TokenKind.prolongs]
  · intro prolonged
    cases left : t.kind with
    | literal =>
        rw [left] at prolonged
        exact .literals left (kind_eq_literal spelled prolonged)
    | identifier =>
        simp only [left, TokenKind.prolongs, Char.isAlphanum, Bool.or_eq_true] at prolonged
        rcases prolonged with letter | digit
        · exact .identifiers left (kind_eq_identifier spelled letter)
        · have kind := kind_eq_literal spelled (Text.isDigit_of_isAsciiDigit digit)
          exact .identifierDigit left kind ⟨c, by simp [front], digit⟩
    | operator =>
        simp only [left, TokenKind.prolongs, Bool.or_eq_true, Bool.and_eq_true,
          decide_eq_true_eq] at prolonged
        have sign : c = '-' ∨ c = '=' := by
          rcases prolonged with ⟨_, sign⟩ | ⟨_, sign⟩
          · exact sign
          · exact .inr sign
        have kind := kind_eq_operator spelled sign
        have text := text_eq_of_front (kind ▸ right.spelled) front sign
        refine .operators left kind ?_
        rw [text]
        rcases prolonged with ⟨less, rfl | rfl⟩ | ⟨less, rfl⟩
        · have : t.text = "<" := String.toList_inj.mp (by simpa using less)
          simp [this]
        · have : t.text = "<" := String.toList_inj.mp (by simpa using less)
          simp [this]
        · have : t.text = ">" := String.toList_inj.mp (by simpa using less)
          simp [this]
    | delimiter => simp [left, TokenKind.prolongs] at prolonged

theorem Laid.stops {offset : Nat} {t : Token} {cs : List Char} {tokens : List Token}
    (laid : Laid offset (some t) cs tokens) :
    Stops (t.kind.prolongs t.text.toList) cs ∧ Stops (· = '.') cs := by
  have ofBlank {c : Char} {rest : List Char} (blank : Text.isBlank c = true) :
      Stops (t.kind.prolongs t.text.toList) (c :: rest) ∧ Stops (· = '.') (c :: rest) := by
    refine ⟨Text.stops_cons.mpr (prolongs_of_isBlank _ _ blank), Text.stops_cons.mpr ?_⟩
    apply decide_eq_false
    rintro rfl
    exact absurd blank (by decide)
  cases laid with
  | last isGap =>
      cases cs with
      | nil => exact ⟨Text.stops_nil _, Text.stops_nil _⟩
      | cons c rest => exact ofBlank (isGap c (by simp))
  | @token _ _ gap rest u _ isGap apart wellFormed _ _ =>
      cases gap with
      | cons c gap => exact ofBlank (isGap c (by simp))
      | nil =>
          rcases List.exists_cons_of_ne_nil (spells_ne_nil wellFormed.spelled) with ⟨c, tail, front⟩
          have spelled : u.kind.Spells (c :: tail) := front ▸ wellFormed.spelled
          have noClash := apart rfl t rfl
          rw [clash_iff wellFormed front, Bool.not_eq_true] at noClash
          rw [List.nil_append, front]
          exact ⟨Text.stops_cons.mpr noClash,
            Text.stops_cons.mpr (decide_eq_false (front_of_spells spelled).2)⟩

theorem scanFrom_gap {gap rest : List Char} (offset : Nat) (isGap : IsGap gap)
    (stop : Stops Text.isBlank rest) :
    scanFrom offset (gap ++ rest) = scanFrom (offset + gap.length) rest := by
  by_cases nonempty : gap = []
  · simp [nonempty]
  · rw [scanFrom_of_first?_eq_some offset (Lexeme.first?_gap nonempty isGap stop)]
    cases result : scanFrom (offset + gap.length) rest <;>
      simp [Lexeme.text, Lexeme.token?, result, Except.map]

theorem scanFrom_token {t : Token} {rest : List Char} {offset : Nat} (wellFormed : t.WellFormed)
    (position : t.position = offset) (stop : Stops (t.kind.prolongs t.text.toList) rest)
    (noPlaces : Text.IsInteger t.text.toList → ¬ Text.Places rest) :
    scanFrom offset (t.text.toList ++ rest) =
      (scanFrom (offset + t.text.toList.length) rest).map (t :: ·) := by
  have weighed : priority? t.kind (String.ofList t.text.toList) = some t.priority := by
    rw [String.ofList_toList, wellFormed.priority?_eq]
  have found := Lexeme.first?_append wellFormed.spelled weighed stop noPlaces
  have same : (⟨String.ofList t.text.toList, t.kind, t.priority, (offset : Int)⟩ : Token) = t := by
    rw [String.ofList_toList, ← position]
  rw [scanFrom_of_first?_eq_some offset found]
  simp only [Lexeme.text, Lexeme.token?, List.drop_left, Option.toList_some, same,
    List.singleton_append]

theorem scanFrom_of_laid {offset : Nat} {before : Option Token} {cs : List Char}
    {tokens : List Token} (laid : Laid offset before cs tokens) :
    scanFrom offset cs = .ok tokens := by
  induction laid with
  | @last offset _ gap isGap =>
      have scanned := scanFrom_gap offset isGap (Text.stops_nil _)
      rw [List.append_nil, scanFrom_nil] at scanned
      exact scanned
  | @token offset _ gap rest t tokens isGap _ wellFormed position behind ih =>
      rcases List.exists_cons_of_ne_nil (spells_ne_nil wellFormed.spelled) with ⟨c, tail, front⟩
      have spelled : t.kind.Spells (c :: tail) := front ▸ wellFormed.spelled
      have noBlank : Stops Text.isBlank (t.text.toList ++ rest) := by
        rw [front]
        exact Text.stops_cons.mpr (front_of_spells spelled).1
      have noPlaces := Text.not_places_of_stops behind.stops.2
      rw [List.append_assoc, scanFrom_gap offset isGap noBlank,
        scanFrom_token wellFormed position behind.stops.1 (fun _ => noPlaces), ih]
      rfl

theorem Laid.prepend {offset : Nat} {before : Option Token} {gap cs : List Char}
    {tokens : List Token} (isGap : IsGap gap) (nonempty : gap ≠ [])
    (laid : Laid (offset + gap.length) none cs tokens) : Laid offset before (gap ++ cs) tokens := by
  have joined {more : List Char} (isMore : IsGap more) : IsGap (gap ++ more) := by
    intro c member
    rcases List.mem_append.mp member with first | second
    · exact isGap c first
    · exact isMore c second
  cases laid with
  | last isMore => exact .last (joined isMore)
  | @token _ _ more rest t _ isMore _ wellFormed position behind =>
      rw [List.append_assoc, ← List.append_assoc, ← List.append_assoc]
      refine .token (joined isMore) ?_ wellFormed ?_ ?_
      · intro empty
        exact absurd (List.append_eq_nil_iff.mp empty).1 nonempty
      · rw [position, List.length_append, Nat.add_assoc]
      · rw [List.length_append, ← Nat.add_assoc]
        exact behind

theorem laid_of_scanFrom {offset : Nat} {before : Option Token} {cs : List Char}
    {tokens : List Token} (scanned : scanFrom offset cs = .ok tokens)
    (stop : ∀ p ∈ before, Stops (p.kind.prolongs p.text.toList) cs) :
    Laid offset before cs tokens := by
  induction offset, cs using scanFrom.induct generalizing before tokens with
  | case1 offset =>
      rw [scanFrom_nil] at scanned
      cases scanned
      exact .last (by simp [IsGap])
  | case2 offset c rest nothing =>
      rw [scanFrom_of_first?_eq_none offset (by simp) nothing] at scanned
      cases scanned
  | case3 offset c rest lexeme found ih =>
      rcases Lexeme.first?_eq_some found with ⟨behind, split, known⟩
      rw [scanFrom_of_first?_eq_some offset found] at scanned
      rcases ok_of_map_eq_ok scanned with ⟨later, scannedLater, rfl⟩
      rw [split] at stop ih scannedLater ⊢
      rw [List.drop_left] at ih scannedLater
      cases lexeme with
      | blanks gap =>
          have laid : Laid _ none behind later := ih scannedLater (by simp)
          exact laid.prepend known.2.1 known.1
      | token kind priority text =>
          rcases known with ⟨spelled, weighed, follow, _⟩
          let t : Token := ⟨String.ofList text, kind, priority, offset⟩
          have toList : t.text.toList = text := String.toList_ofList
          have wellFormed : t.WellFormed :=
            ⟨by rwa [toList], create_eq_ok_iff.mpr weighed⟩
          have laid : Laid _ (some t) behind later := ih scannedLater (by
            rintro p ⟨⟩
            rwa [toList])
          have whole : text ++ behind = [] ++ t.text.toList ++ behind := by simp [toList]
          change Laid offset before (text ++ behind) (t :: later)
          rw [whole]
          refine .token (by simp [IsGap]) ?_ wellFormed rfl (by simpa [toList, Lexeme.text] using laid)
          intro _ p member clash
          -- A clash with the token before would have prolonged that one.
          rcases List.exists_cons_of_ne_nil (spells_ne_nil spelled) with ⟨d, tail, front⟩
          have prolonged := (clash_iff wellFormed (toList.trans front)).mp clash
          have stopped := stop p member d (by simp [Lexeme.text, front])
          simp [stopped] at prolonged

/-- The token where it stands once `width` characters were inserted at an offset of the line. -/
def movedFrom (place width : Nat) (t : Token) : Token :=
  if place ≤ t.position then { t with position := t.position + width } else t

theorem Clash.congr {t t' u u' : Token} (clash : t.Clash u) (leftText : t.text = t'.text)
    (leftKind : t.kind = t'.kind) (rightText : u.text = u'.text) (rightKind : u.kind = u'.kind) :
    t'.Clash u' := by
  rcases clash with ⟨left, right⟩ | ⟨left, right⟩ | ⟨left, right, digit⟩ | ⟨left, right, symbols⟩
  · exact .literals (leftKind ▸ left) (rightKind ▸ right)
  · exact .identifiers (leftKind ▸ left) (rightKind ▸ right)
  · exact .identifierDigit (leftKind ▸ left) (rightKind ▸ right) (rightText ▸ digit)
  · exact .operators (leftKind ▸ left) (rightKind ▸ right) (leftText ▸ rightText ▸ symbols)

@[simp] theorem movedFrom_text (place width : Nat) (t : Token) :
    (t.movedFrom place width).text = t.text := by
  unfold movedFrom
  split <;> rfl

@[simp] theorem movedFrom_kind (place width : Nat) (t : Token) :
    (t.movedFrom place width).kind = t.kind := by
  unfold movedFrom
  split <;> rfl

theorem WellFormed.movedFrom {t : Token} (wellFormed : t.WellFormed) (place width : Nat) :
    (t.movedFrom place width).WellFormed := by
  have weighed := wellFormed.priority?_eq
  refine ⟨?_, create_eq_ok_iff.mpr ?_⟩
  · simpa using wellFormed.spelled
  · rw [movedFrom_kind, movedFrom_text, weighed]
    unfold Token.movedFrom
    split <;> rfl

theorem movedFrom_of_le {place width : Nat} {t : Token} (behind : (place : Int) ≤ t.position) :
    (t.movedFrom place width).position = t.position + width := by
  simp [movedFrom, behind]

theorem movedFrom_of_lt {place width : Nat} {t : Token} (ahead : t.position < (place : Int)) :
    t.movedFrom place width = t := by
  simp [movedFrom, Int.not_le.mpr ahead]

theorem Laid.move {offset place width : Nat} {before : Option Token} {cs : List Char}
    {tokens : List Token} (laid : Laid offset before cs tokens) (after : place ≤ offset) :
    Laid (offset + width) (before.map (movedFrom place width)) cs
      (tokens.map (movedFrom place width)) := by
  induction laid with
  | last isGap => exact .last isGap
  | @token offset before gap rest t tokens isGap apart wellFormed position _ ih =>
      have moved : (t.movedFrom place width).position = t.position + width :=
        movedFrom_of_le (by omega)
      rw [List.map_cons, ← movedFrom_text place width t]
      refine .token isGap ?_ (wellFormed.movedFrom place width) ?_ ?_
      · intro empty q member clash
        rcases Option.map_eq_some_iff.mp member with ⟨p, present, rfl⟩
        exact apart empty p present (clash.congr (by simp) (by simp) (by simp) (by simp))
      · rw [moved, position]
        omega
      · have sum : offset + width + gap.length + t.text.toList.length =
            offset + gap.length + t.text.toList.length + width := by omega
        rw [movedFrom_text, sum]
        exact ih (by omega)

theorem isGap_append {xs ys : List Char} : IsGap (xs ++ ys) ↔ IsGap xs ∧ IsGap ys := by
  simp only [IsGap, List.mem_append, or_imp, forall_and]

theorem Laid.insert_gap {offset : Nat} {before : Option Token} {front back rest blanks : List Char}
    {t : Token} {tokens : List Token} (isGap : IsGap (front ++ back)) (isBlank : IsGap blanks)
    (apart : front ++ back = [] → ∀ p ∈ before, ¬ p.Clash t) (wellFormed : t.WellFormed)
    (position : t.position = (offset + (front ++ back).length : Nat))
    (behind : Laid (offset + (front ++ back).length + t.text.toList.length) (some t) rest tokens) :
    Laid offset before (front ++ blanks ++ (back ++ t.text.toList ++ rest))
      ((t :: tokens).map (movedFrom (offset + front.length) blanks.length)) := by
  have regroup : front ++ blanks ++ (back ++ t.text.toList ++ rest) =
      (front ++ blanks ++ back) ++
        (t.movedFrom (offset + front.length) blanks.length).text.toList ++ rest := by simp
  rw [List.length_append] at position behind
  have moved : (t.movedFrom (offset + front.length) blanks.length).position =
      t.position + blanks.length := movedFrom_of_le (by omega)
  rcases isGap_append.mp isGap with ⟨first, second⟩
  rw [List.map_cons, regroup]
  refine .token ?_ ?_ (wellFormed.movedFrom _ _) ?_ ?_
  · exact isGap_append.mpr ⟨isGap_append.mpr ⟨first, isBlank⟩, second⟩
  · intro empty p member clash
    simp only [List.append_eq_nil_iff] at empty
    exact apart (by simp [empty]) p member (clash.congr rfl rfl (by simp) (by simp))
  · rw [moved, position]
    simp only [List.length_append]
    omega
  · have sum : offset + (front ++ blanks ++ back).length + t.text.toList.length =
        offset + (front.length + back.length) + t.text.toList.length + blanks.length := by
      simp only [List.length_append]
      omega
    rw [movedFrom_text, sum]
    exact behind.move (by omega)

theorem Laid.insert {offset : Nat} {before : Option Token} {cs : List Char} {tokens : List Token}
    (laid : Laid offset before cs tokens) {front back blanks : List Char}
    (split : cs = front ++ back) (isBlank : IsGap blanks)
    (boundary : ∀ t ∈ tokens, t.position + t.text.toList.length ≤ (offset + front.length : Nat) ∨
      (offset + front.length : Nat) ≤ t.position) :
    Laid offset before (front ++ blanks ++ back)
      (tokens.map (movedFrom (offset + front.length) blanks.length)) := by
  induction laid generalizing front with
  | @last _ _ gap isGap =>
      subst split
      rcases isGap_append.mp isGap with ⟨first, second⟩
      exact .last (isGap_append.mpr ⟨isGap_append.mpr ⟨first, isBlank⟩, second⟩)
  | @token offset before gap rest t tokens isGap apart wellFormed position behind ih =>
      rw [List.append_assoc] at split
      rcases List.append_eq_append_iff.mp split with ⟨more, rfl, tail⟩ | ⟨more, rfl, rfl⟩
      · by_cases empty : more = []
        · subst empty
          rw [List.append_nil] at boundary ⊢
          rw [List.nil_append] at tail
          subst tail
          rw [← List.append_nil gap] at isGap apart position behind
          simpa using insert_gap isGap isBlank apart wellFormed position behind
        · -- The blanks stand behind the text of the first token, which keeps its place.
          have positive := List.length_pos_iff.mpr empty
          have inside := boundary t (by simp)
          rw [List.length_append] at inside
          have fits : t.text.toList.length ≤ more.length := by omega
          have stays : t.movedFrom (offset + (gap ++ more).length) blanks.length = t := by
            apply movedFrom_of_lt
            rw [List.length_append]
            omega
          obtain ⟨later, rfl, rfl⟩ : ∃ later, more = t.text.toList ++ later ∧
              rest = later ++ back := by
            rcases List.append_eq_append_iff.mp tail with found | ⟨extra, same, rfl⟩
            · exact found
            · have none : extra = [] := by
                apply List.length_eq_zero_iff.mp
                have := congrArg List.length same
                rw [List.length_append] at this
                omega
              subst none
              exact ⟨[], by simpa using same.symm, by simp⟩
          have place : offset + (gap ++ (t.text.toList ++ later)).length =
              offset + gap.length + t.text.toList.length + later.length := by
            simp only [List.length_append]
            omega
          rw [place] at boundary stays ⊢
          have laidLater := ih rfl fun u member => boundary u (List.mem_cons_of_mem t member)
          have regroup : gap ++ (t.text.toList ++ later) ++ blanks ++ back =
              gap ++ t.text.toList ++ (later ++ blanks ++ back) := by simp
          rw [List.map_cons, stays, regroup]
          exact .token isGap apart wellFormed position laidLater
      · simpa using insert_gap isGap isBlank apart wellFormed position behind

theorem scan_eq_ok_iff {line : String} {tokens : List Token} :
    scan line = .ok tokens ↔ Laid 0 none line.toList tokens := by
  constructor
  · intro scanned
    exact laid_of_scanFrom scanned (by simp)
  · exact scanFrom_of_laid

theorem Laid.wellFormed {offset : Nat} {before : Option Token} {cs : List Char}
    {tokens : List Token} (laid : Laid offset before cs tokens) : ∀ t ∈ tokens, t.WellFormed := by
  induction laid with
  | last => simp
  | token _ _ wellFormed _ _ ih => exact List.forall_mem_cons.mpr ⟨wellFormed, ih⟩

theorem wellFormed_of_scan {line : String} {tokens : List Token} (scanned : scan line = .ok tokens) :
    ∀ t ∈ tokens, t.WellFormed :=
  (scan_eq_ok_iff.mp scanned).wellFormed

/-- Scanning finds exactly the tokens that a line is laid out as, and blanks inserted anywhere but
within a token change no more than the places of the tokens behind them. -/
theorem scan_layout (line : String) (tokens : List Token) :
    (scan line = .ok tokens ↔ Laid 0 none line.toList tokens) ∧
    ∀ front blanks back : List Char, line.toList = front ++ back → IsGap blanks →
      scan line = .ok tokens →
      (∀ t ∈ tokens, t.position + t.text.length ≤ front.length ∨ front.length ≤ t.position) →
      scan (String.ofList (front ++ blanks ++ back)) =
        .ok (tokens.map (movedFrom front.length blanks.length)) := by
  refine ⟨scan_eq_ok_iff, ?_⟩
  intro front blanks back split isBlank scanned boundary
  have laid := scan_eq_ok_iff.mp scanned
  have inserted := laid.insert split isBlank (by simpa [String.length_toList] using boundary)
  apply scan_eq_ok_iff.mpr
  simpa using inserted

/-- A blank inserted before the assignment of `a<-2` moves the two tokens behind it. -/
theorem scan_layout_assignment :
    scan "a<-2" = .ok [⟨"a", .identifier, 999, 0⟩, ⟨"<-", .operator, 0, 1⟩,
      ⟨"2", .literal, 1000, 3⟩] ∧
    scan (String.ofList (['a'] ++ [' '] ++ ['<', '-', '2'])) =
      .ok [⟨"a", .identifier, 999, 0⟩, ⟨"<-", .operator, 0, 2⟩, ⟨"2", .literal, 1000, 4⟩] := by
  have scanned : scan "a<-2" = .ok [⟨"a", .identifier, 999, 0⟩, ⟨"<-", .operator, 0, 1⟩,
      ⟨"2", .literal, 1000, 3⟩] := by decide +kernel
  refine ⟨scanned, ?_⟩
  have inserted := (scan_layout "a<-2" _).2 ['a'] [' '] ['<', '-', '2'] (by simp)
    (by simp [IsGap]; decide) scanned (by simp; decide)
  simpa [movedFrom] using inserted

end Token

end LineCalc
