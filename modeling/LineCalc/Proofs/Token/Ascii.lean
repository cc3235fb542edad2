import LineCalc.Proofs.Text.Ascii
import LineCalc.Proofs.Token.Layout

/-! Scanning a line in ASCII.

Digits of other scripts stand in literals only. With all digits in ASCII a line has the same tokens at
the same places, but for the digits of its literals, unless a literal directly follows an identifier:
there an ASCII digit prolongs the identifier, and a digit of another script does not. -/

namespace LineCalc

open Text (toAscii)

namespace Token

def inAscii (t : Token) : Token := { t with text := Text.inAscii t.text }

variable {t u : Token}

@[simp] theorem text_inAscii (t : Token) : t.inAscii.text = Text.inAscii t.text := rfl

@[simp] theorem kind_inAscii (t : Token) : t.inAscii.kind = t.kind := rfl

@[simp] theorem priority_inAscii (t : Token) : t.inAscii.priority = t.priority := rfl

@[simp] theorem isDelimiter_inAscii (t : Token) : t.inAscii.isDelimiter = t.isDelimiter := rfl

@[simp] theorem isOpen_inAscii (t : Token) : t.inAscii.isOpen = t.isOpen := by
  have same : Text.inAscii t.text = "(" ↔ t.text = "(" := Text.inAscii_eq_iff (by decide)
  rw [isOpen, isOpen, isDelimiter_inAscii, text_inAscii, decide_eq_decide.mpr same]

@[simp] theorem isClose_inAscii (t : Token) : t.inAscii.isClose = t.isClose := by
  have same : Text.inAscii t.text = ")" ↔ t.text = ")" := Text.inAscii_eq_iff (by decide)
  rw [isClose, isClose, isDelimiter_inAscii, text_inAscii, decide_eq_decide.mpr same]

theorem inAscii_symbol (op : Operator) : Text.inAscii op.symbol = op.symbol := by
  apply Text.inAscii_of_all_lt
  cases op <;> decide

theorem WellFormed.inAscii_eq_self (wellFormed : t.WellFormed) (other : t.kind ≠ .literal) :
    t.inAscii = t := by
  have spelled := wellFormed.spelled
  have kept : Text.inAscii t.text = t.text := by
    cases kind : t.kind with
    | literal => contradiction
    | identifier =>
        rw [kind] at spelled
        exact Text.inAscii_eq_self fun c member => Text.toAscii_of_mem_identifier spelled member
    | operator =>
        rw [kind] at spelled
        obtain ⟨op, same⟩ := spelled
        rw [String.toList_inj.mp same, inAscii_symbol]
    | delimiter =>
        rw [kind] at spelled
        rcases spelled with same | same
        · exact Text.inAscii_of_all_lt (by rw [same]; decide)
        · exact Text.inAscii_of_all_lt (by rw [same]; decide)
  rw [inAscii, kept]

theorem WellFormed.inAscii (wellFormed : t.WellFormed) : t.inAscii.WellFormed := by
  by_cases literal : t.kind = .literal
  · have spelled := wellFormed.spelled
    have weighed := wellFormed.priority?_eq
    rw [literal] at spelled weighed
    refine ⟨?_, create_eq_ok_iff.mpr ?_⟩
    · rw [kind_inAscii, literal, text_inAscii, Text.toList_inAscii]
      rcases spelled with decimal | integer
      · exact .inl decimal.map_toAscii
      · exact .inr integer.map_toAscii
    · rw [kind_inAscii, literal]
      exact weighed
  · rwa [wellFormed.inAscii_eq_self literal]

/-- Tokens in ASCII run together only where they did before, or where a literal follows an
identifier. -/
theorem Clash.of_inAscii (clash : t.inAscii.Clash u.inAscii) :
    t.Clash u ∨ t.kind = .identifier ∧ u.kind = .literal := by
  cases clash with
  | literals left right => exact .inl (.literals left right)
  | identifiers left right => exact .inl (.identifiers left right)
  | identifierDigit left right => exact .inr ⟨left, right⟩
  | operators left right symbols =>
      refine .inl (.operators left right ?_)
      simp only [text_inAscii, List.mem_cons, List.not_mem_nil, or_false, Prod.mk.injEq] at symbols ⊢
      simpa (disch := decide) only [Text.inAscii_eq_iff] using symbols

theorem Laid.inAscii {offset : Nat} {before : Option Token} {cs : List Char} {tokens : List Token}
    (laid : Laid offset before cs tokens)
    (ends : ∀ t ∈ before, t.position + t.text.length = offset)
    (apart : ∀ t ∈ before.toList ++ tokens, ∀ u ∈ tokens, t.kind = .identifier → u.kind = .literal →
      u.position ≠ t.position + t.text.length) :
    Laid offset (before.map Token.inAscii) (cs.map toAscii) (tokens.map Token.inAscii) := by
  induction laid with
  | last isGap =>
      rw [isGap.map_toAscii]
      exact .last isGap
  | @token offset before gap rest t tokens isGap unclashed wellFormed position behind ih =>
      have ended : t.position + t.text.length = (offset + gap.length + t.text.toList.length : Nat) := by
        rw [position, String.length_toList]
        omega
      have later := ih (by simpa using ended) (by
        intro p early u late
        exact apart p (List.mem_append_right _ (by simpa using early)) u (List.mem_cons_of_mem t late))
      rw [List.map_append, List.map_append, isGap.map_toAscii, ← Text.toList_inAscii, ← text_inAscii,
        List.map_cons]
      refine Laid.token isGap ?_ wellFormed.inAscii position (by simpa using later)
      intro none p member clash
      obtain ⟨q, within, rfl⟩ := Option.map_eq_some_iff.mp member
      rcases clash.of_inAscii with old | ⟨identifier, literal⟩
      · exact unclashed none q within old
      · -- Without a gap the literal stands where the identifier ends.
        apply apart q (List.mem_append_left _ (Option.mem_toList.mpr within)) t (by simp) identifier literal
        rw [position, ends q within, none]
        simp

theorem scan_inAscii {line : String} {tokens : List Token} (scanned : scan line = .ok tokens)
    (apart : ∀ t ∈ tokens, ∀ u ∈ tokens, t.kind = .identifier → u.kind = .literal →
      u.position ≠ t.position + t.text.length) :
    scan (Text.inAscii line) = .ok (tokens.map Token.inAscii) := by
  apply scan_eq_ok_iff.mpr
  rw [Text.toList_inAscii]
  exact (scan_eq_ok_iff.mp scanned).inAscii (by simp) apart

end Token

end LineCalc
