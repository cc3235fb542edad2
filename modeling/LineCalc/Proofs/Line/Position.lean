import LineCalc.Proofs.Expr.Balance
import LineCalc.Proofs.Line.Unreached

/-! Where the refusals of a line point.

Whatever building refuses, it blames a token of the row, and the wording of the refusal says what kind of
token that is. Tokens stand in the line where their positions tell, so the text that is spoken of is found
there. -/

namespace LineCalc

open LineCalc.Span

namespace ParseCause

def lead : ParseCause → String
  | missingOperand => "missing operand"
  | missingOperandFor _ => "missing operand for "
  | invalidSyntax => "invalid syntax"
  | invalidToken _ => "invalid syntax "
  | invalidParenthesis => "invalid parenthesis"
  | tooDeep => "expression too deeply nested"

def quotation : ParseCause → List Char
  | missingOperandFor text | invalidToken text => '`' :: text.toList ++ ['`']
  | _ => []

theorem toList_message (cause : ParseCause) :
    cause.message.toList = cause.lead.toList ++ cause.quotation := by
  cases cause with
  | missingOperandFor text =>
      have written : (missingOperandFor text).message = "missing operand for `" ++ text ++ "`" := rfl
      simp [written, lead, quotation]
  | invalidToken text =>
      have written : (invalidToken text).message = "invalid syntax `" ++ text ++ "`" := rfl
      simp [written, lead, quotation]
  | _ => exact (List.append_nil _).symm

theorem takeWhile_message (cause : ParseCause) :
    cause.message.toList.takeWhile (· ≠ '`') = cause.lead.toList := by
  rw [toList_message]
  cases cause <;> simp [lead, quotation]

theorem message_injective {cause other : ParseCause} (same : cause.message = other.message) :
    cause = other := by
  have leads : cause.lead.toList = other.lead.toList := by
    rw [← takeWhile_message, ← takeWhile_message, same]
  have quotations : cause.quotation = other.quotation := by
    have letters := congrArg String.toList same
    rw [toList_message, toList_message, leads] at letters
    exact List.append_cancel_left letters
  clear same
  cases cause <;> cases other <;> simp_all [lead, quotation, String.toList_inj]

end ParseCause

inductive Span.Rootless (tokens : List Token) : ParseError → Prop
  | unpaired {t : Token} (unpaired : unpaired? tokens = some t) :
      Rootless tokens ⟨.invalidParenthesis, some t.position⟩
  | delimiters (paired : unpaired? tokens = none)
      (none : lightest? (candidates 0 0 tokens) = none) :
      Rootless tokens ⟨.invalidSyntax, tokens.head?.map Token.position⟩
  | operand {t : Token} (member : t ∈ tokens) :
      Rootless tokens ⟨.invalidToken t.text, some t.position⟩
  | edge {t : Token} (member : t ∈ tokens) (operator : t.kind = .operator) :
      Rootless tokens ⟨.missingOperandFor t.text, some t.position⟩

theorem Span.rootless_of_operatorRoot {tokens : List Token} {error : ParseError}
    (refused : operatorRoot tokens = .error error) : Rootless tokens error := by
  unfold operatorRoot root at refused
  cases unpaired : unpaired? tokens with
  | some parenthesis =>
      simp only [unpaired] at refused
      cases refused
      exact .unpaired unpaired
  | none =>
      cases lightest : lightest? (candidates 0 0 tokens) with
      | none =>
          simp only [unpaired, lightest] at refused
          cases refused
          exact .delimiters unpaired lightest
      | some c =>
          obtain ⟨front, behind, split, _⟩ := mem_candidates (mem_of_lightest? lightest)
          have member : c.token ∈ tokens := by simp [split]
          simp only [unpaired, lightest] at refused
          split at refused
          · cases refused
            exact .operand member
          · next operator =>
            split at refused
            · cases refused
              exact .edge member (Decidable.not_not.mp operator)
            · contradiction

theorem Span.exists_open_of_delimiters {tokens : List Token}
    (wellFormed : ∀ t ∈ tokens, t.WellFormed) (nonempty : tokens ≠ [])
    (paired : unpaired? tokens = none) (none : lightest? (candidates 0 0 tokens) = none) :
    ∃ t rest, tokens = t :: rest ∧ t.isOpen = true := by
  obtain ⟨t, rest, rfl⟩ := List.exists_cons_of_ne_nil nonempty
  refine ⟨t, rest, rfl, ?_⟩
  have delimiter : t.isDelimiter = true := by
    apply Bool.of_not_eq_false
    intro plain
    have empty := eq_nil_of_lightest?_eq_none none
    rw [candidates_plain rest 0 0 plain] at empty
    contradiction
  rcases (wellFormed t List.mem_cons_self).isOpen_or_isClose delimiter with opened | close
  · exact opened
  · -- A closing parenthesis at the front would have no partner.
    have balanced := (unpaired?_eq_none_iff.mp paired).front [t]
      ((List.prefix_cons_inj t).mpr List.nil_prefix)
    simp [close, Token.isOpen_of_isClose close] at balanced

namespace Expr

inductive Blames (row : List Token) : ParseError → Prop
  | nothing (empty : row = []) : Blames row ⟨.missingOperand, none⟩
  | hollow {front behind : List Token} {opener closer : Token}
      (split : row = front ++ opener :: closer :: behind) (opened : opener.isOpen = true)
      (closed : closer.isClose = true) : Blames row ⟨.missingOperand, some closer.position⟩
  | edge {t : Token} (member : t ∈ row) (operator : t.kind = .operator) :
      Blames row ⟨.missingOperandFor t.text, some t.position⟩
  | delimiters {t : Token} (member : t ∈ row) (opened : t.isOpen = true) :
      Blames row ⟨.invalidSyntax, some t.position⟩
  | token {t : Token} (member : t ∈ row) : Blames row ⟨.invalidToken t.text, some t.position⟩
  | parenthesis {t : Token} (member : t ∈ row) (parenthesis : t.isOpen = true ∨ t.isClose = true) :
      Blames row ⟨.invalidParenthesis, some t.position⟩
  | tooDeep {first : Token} {rest : List Token} (split : row = first :: rest) :
      Blames row ⟨.tooDeep, some first.position⟩

variable {row : List Token} {span : Span}

theorem Reaches.mem (reached : Reaches row span) {inner : List Token} {pairs : Nat}
    (encloses : Encloses inner pairs span.tokens) {t : Token} (member : t ∈ inner) : t ∈ row := by
  obtain ⟨front, behind, rfl, _⟩ := reached.partOf.exists_inner encloses
  simp [member]

/-- Whatever a row is refused for, a token of it is blamed, unless it has none. -/
theorem blames_of_error {stack : Stack} (room : 0 < stack.spanRoom) {error : ParseError}
    (wellFormed : ∀ t ∈ row, t.WellFormed) (refused : (ofTokens stack row).result = .error (.parse error)) : Blames row error := by
  have origin : Origin row _ (.parse error) := origin_of_error .whole refused
  generalize shown : BuildError.parse error = failure at origin
  cases origin with
  | symbol => cases shown
  | tooDeep =>
      cases shown
      cases row with
      | nil =>
          have planned : plan 0 [] = .done (.error (.parse ⟨.missingOperand, none⟩)) := by
            simp only [plan, strip_of_not_isWrapped 0 (rfl : isWrapped [] = false)]
          rw [ofTokens_of_done room planned] at refused
          cases refused
      | cons first rest => exact .tooDeep rfl
  | @span span _ reached planned =>
      subst shown
      have cases := planned_plan span.start span.tokens
      generalize plan span.start span.tokens = plan at planned cases
      cases cases with
      | split => cases planned
      | nothing empty =>
          cases planned
          -- The sides of a split are not empty, so an empty span is the whole of an empty row.
          refine .nothing ?_
          by_contra filled
          exact reached.partOf.nonempty filled empty
      | hollow opened closed encloses =>
          cases planned
          obtain ⟨front, behind, split, _⟩ := reached.partOf.exists_inner encloses
          exact .hollow (by simpa using split) opened closed
      | leaf encloses =>
          rw [(ofToken_eq_parse_iff.mp (Plan.done.inj planned)).2]
          exact .token (reached.mem encloses List.mem_cons_self)
      | @refused pairs inner _ encloses _ long root =>
          cases planned
          cases rootless_of_operatorRoot root with
          | operand member => exact .token (reached.mem encloses member)
          | edge member operator => exact .edge (reached.mem encloses member) operator
          | unpaired unpaired =>
              obtain ⟨member, parenthesis⟩ := mem_of_unpaired? unpaired
              exact .parenthesis (reached.mem encloses member) parenthesis
          | delimiters paired none =>
              have nonempty : inner ≠ [] := by
                rintro rfl
                simp at long
              obtain ⟨t, rest, rfl, opened⟩ := exists_open_of_delimiters
                (fun t member => wellFormed t (reached.mem encloses member)) nonempty paired none
              exact .delimiters (reached.mem encloses List.mem_cons_self) opened

theorem Blames.position_eq_none_iff {error : ParseError} (blames : Blames row error) :
    error.position = none ↔ row = [] := by
  cases blames with
  | nothing empty => simp [empty]
  | hollow split | tooDeep split => simp [split]
  | edge member | delimiters member | token member | parenthesis member =>
      simp [List.ne_nil_of_mem member]

theorem Blames.exists_mem {error : ParseError} (blames : Blames row error) {p : Int}
    (position : error.position = some p) : ∃ t ∈ row, t.position = p := by
  cases blames with
  | nothing => contradiction
  | hollow split | tooDeep split =>
      cases position
      exact ⟨_, by simp [split], rfl⟩
  | edge member | delimiters member | token member | parenthesis member =>
      cases position
      exact ⟨_, member, rfl⟩

end Expr

def Line.StandsAt (line : String) (text : List Char) (position : Int) : Prop :=
  ∃ front behind, line.toList = front ++ text ++ behind ∧ position = front.length

theorem Token.Laid.exists_place {offset : Nat} {before : Option Token} {cs : List Char}
    {tokens : List Token} (laid : Laid offset before cs tokens) {t : Token} (member : t ∈ tokens) :
    ∃ front behind, cs = front ++ t.text.toList ++ behind ∧
      t.position = (offset + front.length : Nat) := by
  induction laid with
  | last => contradiction
  | @token offset _ gap rest u tokens _ _ _ position _ ih =>
      rcases List.mem_cons.mp member with rfl | later
      · exact ⟨gap, rest, rfl, position⟩
      · obtain ⟨front, behind, rfl, place⟩ := ih later
        refine ⟨gap ++ u.text.toList ++ front, behind, by simp, ?_⟩
        rw [place]
        simp only [List.length_append]
        omega

theorem Token.standsAt_of_scan {line : String} {tokens : List Token}
    (scanned : scan line = .ok tokens) {t : Token} (member : t ∈ tokens) :
    Line.StandsAt line t.text.toList t.position := by
  obtain ⟨front, behind, split, place⟩ := (scan_eq_ok_iff.mp scanned).exists_place member
  exact ⟨front, behind, split, by rw [place, Nat.zero_add]⟩

theorem Token.standsAt_of_isOpen {line : String} {tokens : List Token}
    (scanned : scan line = .ok tokens) {t : Token} (member : t ∈ tokens) (opened : t.isOpen = true) :
    Line.StandsAt line ['('] t.position := by
  have standing := standsAt_of_scan scanned member
  simp only [isOpen, Bool.and_eq_true, decide_eq_true_eq] at opened
  rwa [opened.2] at standing

theorem Token.standsAt_of_isClose {line : String} {tokens : List Token}
    (scanned : scan line = .ok tokens) {t : Token} (member : t ∈ tokens) (closed : t.isClose = true) :
    Line.StandsAt line [')'] t.position := by
  have standing := standsAt_of_scan scanned member
  simp only [isClose, Bool.and_eq_true, decide_eq_true_eq] at closed
  rwa [closed.2] at standing

/-- A refusal points at what it speaks of. It has a position if the line has tokens, which is that of one
of them. What its wording quotes stands there, or else the parenthesis or the first token that the wording
is about. -/
theorem Line.position_of_parseError (stack : Stack) (room : 0 < stack.spanRoom) (line : String)
    (tokens : List Token) (error : ParseError) (scanned : Token.scan line = .ok tokens)
    (refused : (Expr.ofTokens stack tokens).result = .error (.parse error)) :
    (error.position = none ↔ tokens = []) ∧
    (∀ p, error.position = some p → ∃ t ∈ tokens, t.position = p) ∧
    (∀ text, error.cause.message = "invalid syntax `" ++ text ++ "`" →
      ∃ p, error.position = some p ∧ StandsAt line text.toList p) ∧
    (∀ text, error.cause.message = "missing operand for `" ++ text ++ "`" →
      (∃ op : Operator, text = op.symbol) ∧
      ∃ p, error.position = some p ∧ StandsAt line text.toList p) ∧
    (error.cause.message = "invalid parenthesis" →
      ∃ p, error.position = some p ∧ (StandsAt line ['('] p ∨ StandsAt line [')'] p)) ∧
    (error.cause.message = "missing operand" → tokens ≠ [] →
      ∃ front opener closer behind, tokens = front ++ opener :: closer :: behind ∧
        opener.isOpen = true ∧ closer.isClose = true ∧ error.position = some closer.position ∧
        StandsAt line [')'] closer.position) ∧
    (error.cause.message = "invalid syntax" →
      ∃ p, error.position = some p ∧ StandsAt line ['('] p) ∧
    (error.cause.message = "expression too deeply nested" →
      ∃ first rest, tokens = first :: rest ∧ error.position = some first.position) := by
  have wellFormed := Token.wellFormed_of_scan scanned
  have blames := Expr.blames_of_error room wellFormed refused
  refine ⟨blames.position_eq_none_iff, fun p => blames.exists_mem, ?_, ?_, ?_, ?_, ?_, ?_⟩
  · intro text message
    have cause : error.cause = .invalidToken text := ParseCause.message_injective message
    cases blames with
    | token member =>
        cases cause
        exact ⟨_, rfl, Token.standsAt_of_scan scanned member⟩
    | _ => cases cause
  · intro text message
    have cause : error.cause = .missingOperandFor text := ParseCause.message_injective message
    cases blames with
    | edge member operator =>
        cases cause
        have spelled := (wellFormed _ member).spelled
        rw [operator] at spelled
        obtain ⟨op, same⟩ := spelled
        exact ⟨⟨op, String.toList_inj.mp same⟩, _, rfl, Token.standsAt_of_scan scanned member⟩
    | _ => cases cause
  · intro message
    have cause : error.cause = .invalidParenthesis := ParseCause.message_injective message
    cases blames with
    | parenthesis member parenthesis =>
        exact ⟨_, rfl, parenthesis.imp (Token.standsAt_of_isOpen scanned member)
          (Token.standsAt_of_isClose scanned member)⟩
    | _ => cases cause
  · intro message filled
    have cause : error.cause = .missingOperand := ParseCause.message_injective message
    cases blames with
    | nothing empty => contradiction
    | @hollow front behind opener closer split opened closed =>
        have member : closer ∈ tokens := by simp [split]
        exact ⟨front, opener, closer, behind, split, opened, closed, rfl,
          Token.standsAt_of_isClose scanned member closed⟩
    | _ => cases cause
  · intro message
    have cause : error.cause = .invalidSyntax := ParseCause.message_injective message
    cases blames with
    | delimiters member opened =>
        exact ⟨_, rfl, Token.standsAt_of_isOpen scanned member opened⟩
    | _ => cases cause
  · intro message
    have cause : error.cause = .tooDeep := ParseCause.message_injective message
    cases blames with
    | tooDeep split => exact ⟨_, _, split, rfl⟩
    | _ => cases cause

/-- Behind a split and a pair that is taken off, places are still those of the whole line. -/
theorem Line.position_of_parseError_inner :
    (∃ tokens, Token.scan "(2 + (3*))" = .ok tokens ∧
      (Expr.ofTokens .empty tokens).result = .error (.parse ⟨.missingOperandFor "*", some 7⟩) ∧
      StandsAt "(2 + (3*))" ['*'] 7) ∧
    ∃ tokens, Token.scan "7*(())" = .ok tokens ∧
      (Expr.ofTokens .empty tokens).result = .error (.parse ⟨.missingOperand, some 4⟩) ∧
      StandsAt "7*(())" [')'] 4 := by
  refine ⟨?_, ?_⟩
  · let tokens : List Token := [⟨"(", .delimiter, -1, 0⟩, ⟨"2", .literal, 1000, 1⟩,
      ⟨"+", .operator, 1, 3⟩, ⟨"(", .delimiter, -1, 5⟩, ⟨"3", .literal, 1000, 6⟩,
      ⟨"*", .operator, 2, 7⟩, ⟨")", .delimiter, -1, 8⟩, ⟨")", .delimiter, -1, 9⟩]
    have scanned : Token.scan "(2 + (3*))" = .ok tokens := by decide +kernel
    have refused : (Expr.ofTokens .empty tokens).result =
        .error (.parse ⟨.missingOperandFor "*", some 7⟩) := by decide +kernel
    obtain ⟨_, _, _, quoted, _⟩ := position_of_parseError .empty (by decide) _ tokens _ scanned refused
    obtain ⟨_, p, place, standing⟩ := quoted "*" rfl
    cases place
    exact ⟨tokens, scanned, refused, standing⟩
  · let tokens : List Token := [⟨"7", .literal, 1000, 0⟩, ⟨"*", .operator, 2, 1⟩,
      ⟨"(", .delimiter, -1, 2⟩, ⟨"(", .delimiter, -1, 3⟩, ⟨")", .delimiter, -1, 4⟩,
      ⟨")", .delimiter, -1, 5⟩]
    have scanned : Token.scan "7*(())" = .ok tokens := by decide +kernel
    have refused : (Expr.ofTokens .empty tokens).result =
        .error (.parse ⟨.missingOperand, some 4⟩) := by decide +kernel
    obtain ⟨_, _, _, _, _, hollow, _⟩ := position_of_parseError .empty (by decide) _ tokens _ scanned refused
    obtain ⟨_, _, closer, _, _, _, _, place, standing⟩ := hollow rfl (List.cons_ne_nil _ _)
    rw [← Option.some.inj place] at standing
    exact ⟨tokens, scanned, refused, standing⟩

end LineCalc
