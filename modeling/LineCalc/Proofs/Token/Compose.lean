import LineCalc.Proofs.Token.Layout

namespace LineCalc

open Text (IsGap)

namespace Token

def word (t : Token) : TokenKind × String := (t.kind, t.text)

section Words

variable {t u : Token}

theorem kind_eq_of_word_eq (same : t.word = u.word) : t.kind = u.kind :=
  (Prod.mk.inj same).1

theorem text_eq_of_word_eq (same : t.word = u.word) : t.text = u.text :=
  (Prod.mk.inj same).2

theorem isOpen_eq_of_word_eq (same : t.word = u.word) : t.isOpen = u.isOpen := by
  simp [isOpen, isDelimiter, kind_eq_of_word_eq same, text_eq_of_word_eq same]

theorem isClose_eq_of_word_eq (same : t.word = u.word) : t.isClose = u.isClose := by
  simp [isClose, isDelimiter, kind_eq_of_word_eq same, text_eq_of_word_eq same]

end Words

def opener (offset : Nat) : Token := ⟨"(", .delimiter, delimiterPriority, offset⟩

def closer (offset : Nat) : Token := ⟨")", .delimiter, delimiterPriority, offset⟩

def sign (op : Operator) (offset : Nat) : Token := ⟨op.symbol, .operator, op.priority, offset⟩

theorem opener_wellFormed (offset : Nat) : (opener offset).WellFormed :=
  ⟨.inl (by simp [opener]), rfl⟩

theorem closer_wellFormed (offset : Nat) : (closer offset).WellFormed :=
  ⟨.inr (by simp [closer]), rfl⟩

theorem sign_wellFormed (op : Operator) (offset : Nat) : (sign op offset).WellFormed :=
  ⟨⟨op, rfl⟩, create_eq_ok_iff.mpr (by simp [sign, priority?])⟩

theorem Clash.not_delimiter {t u : Token} (clash : t.Clash u) :
    t.kind ≠ .delimiter ∧ u.kind ≠ .delimiter := by
  cases clash <;> simp_all

variable {offset : Nat} {before : Option Token} {cs rest : List Char} {tokens more : List Token}

theorem Laid.after_delimiter {t : Token} (laid : Laid offset none cs tokens)
    (delimiter : t.kind = .delimiter) : Laid offset (some t) cs tokens := by
  cases laid with
  | last isGap => exact .last isGap
  | token isGap _ wellFormed position behind =>
      refine .token isGap ?_ wellFormed position behind
      rintro _ p ⟨⟩ clash
      exact clash.not_delimiter.1 delimiter

theorem Laid.append_delimiter {u : Token} (laid : Laid offset before cs tokens)
    (delimiter : u.kind = .delimiter) (wellFormed : u.WellFormed)
    (position : u.position = (offset + cs.length : Nat))
    (behind : Laid (offset + cs.length + u.text.toList.length) (some u) rest more) :
    Laid offset before (cs ++ u.text.toList ++ rest) (tokens ++ u :: more) := by
  induction laid with
  | last isGap =>
      refine .token isGap ?_ wellFormed position behind
      intro _ p _ clash
      exact clash.not_delimiter.2 delimiter
  | @token offset before gap tail t tokens isGap apart wellFormedFirst positionFirst _ ih =>
      have length : offset + (gap ++ t.text.toList ++ tail).length =
          offset + gap.length + t.text.toList.length + tail.length := by
        simp only [List.length_append]
        omega
      rw [length] at position behind
      rw [List.append_assoc, List.append_assoc, ← List.append_assoc tail]
      exact .token isGap apart wellFormedFirst positionFirst (ih position behind)

theorem Laid.enclose (laid : Laid 0 none cs tokens) (offset : Nat) (before : Option Token)
    (behind : Laid (offset + cs.length + 2) (some (closer (offset + cs.length + 1))) rest more) :
    Laid offset before ('(' :: (cs ++ ')' :: rest))
      (opener offset :: (tokens.map (movedFrom 0 (offset + 1)) ++
        closer (offset + cs.length + 1) :: more)) := by
  have opens : Laid offset before ([] ++ (opener offset).text.toList ++ (cs ++ ')' :: rest))
      (opener offset :: (tokens.map (movedFrom 0 (offset + 1)) ++
        closer (offset + cs.length + 1) :: more)) := by
    refine .token (by simp [IsGap]) ?_ (opener_wellFormed offset) rfl ?_
    · intro _ p _ clash
      exact clash.not_delimiter.2 rfl
    · have moved : Laid (offset + 1) (some (opener offset)) cs
          (tokens.map (movedFrom 0 (offset + 1))) := by
        simpa [Nat.add_comm] using (laid.move (Nat.le_refl 0)).after_delimiter rfl
      have whole := moved.append_delimiter rfl (closer_wellFormed (offset + cs.length + 1))
        (by simp [closer]; omega) (by simpa [closer, Nat.add_right_comm] using behind)
      simpa [opener, closer] using whole
  simpa [opener] using opens

theorem WellFormed.at_position {t : Token} (wellFormed : t.WellFormed) (position : Int) :
    { t with position := position }.WellFormed :=
  ⟨wellFormed.spelled, create_eq_ok_iff.mpr wellFormed.priority?_eq⟩

theorem exists_laid_blanks {row : List Token} (wellFormed : ∀ t ∈ row, t.WellFormed) (offset : Nat)
    (before : Option Token) :
    ∃ tokens, Laid offset before (row.flatMap fun t => ' ' :: t.text.toList) tokens ∧
      tokens.map word = row.map word := by
  induction row generalizing offset before with
  | nil => exact ⟨[], .last (by simp [IsGap]), rfl⟩
  | cons t row ih =>
      rcases List.forall_mem_cons.mp wellFormed with ⟨wellFormedFirst, wellFormedRest⟩
      let first : Token := { t with position := (offset + [' '].length : Nat) }
      rcases ih wellFormedRest (offset + [' '].length + t.text.toList.length) (some first) with
        ⟨tokens, laid, words⟩
      have whole : Laid offset before ([' '] ++ first.text.toList ++
          row.flatMap fun t => ' ' :: t.text.toList) (first :: tokens) :=
        .token (by simp [IsGap]; decide) (by simp) (wellFormedFirst.at_position _) rfl laid
      exact ⟨first :: tokens, whole, by simp [words, first, word]⟩

theorem toList_intercalate_cons (t : Token) (row : List Token) :
    (" ".intercalate ((t :: row).map text)).toList =
      t.text.toList ++ row.flatMap fun u => ' ' :: u.text.toList := by
  induction row generalizing t with
  | nil => simp
  | cons u row ih =>
      simp only [String.toList_intercalate, List.map_cons, List.intercalate_cons_cons,
        List.flatMap_cons] at ih ⊢
      rw [ih u]
      simp

theorem exists_scan_words {row : List Token} (wellFormed : ∀ t ∈ row, t.WellFormed) :
    ∃ tokens, scan (" ".intercalate (row.map text)) = .ok tokens ∧
      tokens.map word = row.map word := by
  cases row with
  | nil => exact ⟨[], by decide +kernel, rfl⟩
  | cons t row =>
      rcases List.forall_mem_cons.mp wellFormed with ⟨wellFormedFirst, wellFormedRest⟩
      let first : Token := { t with position := 0 }
      rcases exists_laid_blanks wellFormedRest t.text.toList.length (some first) with
        ⟨tokens, laid, words⟩
      have whole : Laid 0 none
          ([] ++ first.text.toList ++ row.flatMap fun t => ' ' :: t.text.toList) (first :: tokens) :=
        .token (by simp [IsGap]) (by simp) (wellFormedFirst.at_position _) rfl
          (by simpa [first] using laid)
      refine ⟨first :: tokens, scan_eq_ok_iff.mpr ?_, by simp [words, first, word]⟩
      rw [toList_intercalate_cons]
      exact whole

end Token

end LineCalc
