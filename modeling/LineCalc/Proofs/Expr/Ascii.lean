import LineCalc.Proofs.Expr.Plan
import LineCalc.Proofs.Token.Ascii

namespace LineCalc

open Text (toAscii)

def ParseCause.inAscii : ParseCause → ParseCause
  | missingOperandFor operator => missingOperandFor (Text.inAscii operator)
  | invalidToken text => invalidToken (Text.inAscii text)
  | cause => cause

def ParseError.inAscii (e : ParseError) : ParseError := { e with cause := e.cause.inAscii }

def BuildError.inAscii : BuildError → BuildError
  | parse e => parse e.inAscii
  | fault f => fault f

namespace Span

def inAscii (span : Span) : Span := ⟨span.start, span.tokens.map Token.inAscii⟩

def Candidate.inAscii (c : Candidate) : Candidate := { c with token := c.token.inAscii }

def Balance.inAscii : Balance → Balance
  | stray closer => stray closer.inAscii
  | result => result

theorem closesLast_inAscii (depth : Nat) (tokens : List Token) :
    closesLast depth (tokens.map Token.inAscii) = closesLast depth tokens := by
  induction tokens generalizing depth with
  | nil => rfl
  | cons t rest ih =>
      simp only [List.map_cons, closesLast, Token.isOpen_inAscii, Token.isClose_inAscii, ih,
        List.isEmpty_map]

theorem isWrapped_inAscii (tokens : List Token) :
    isWrapped (tokens.map Token.inAscii) = isWrapped tokens := by
  cases tokens with
  | nil => rfl
  | cons t rest => simp only [List.map_cons, isWrapped, Token.isOpen_inAscii, closesLast_inAscii]

theorem interior_inAscii (tokens : List Token) :
    interior (tokens.map Token.inAscii) = (interior tokens).map Token.inAscii := by
  simp [interior]

theorem strip_inAscii (start : Nat) (tokens : List Token) :
    strip start (tokens.map Token.inAscii) =
      ((strip start tokens).map inAscii).mapError ParseError.inAscii := by
  induction start, tokens using strip.induct with
  | case1 start tokens wrapped empty =>
      have nothing : interior tokens = [] := List.isEmpty_iff.mp empty
      have wrapped' : isWrapped (tokens.map Token.inAscii) = true := by rwa [isWrapped_inAscii]
      have nothing' : interior (tokens.map Token.inAscii) = [] := by
        rw [interior_inAscii, nothing, List.map_nil]
      rw [strip_of_interior_eq_nil start wrapped nothing,
        strip_of_interior_eq_nil start wrapped' nothing', List.getLast?_map, Option.map_map]
      rfl
  | case2 start tokens wrapped nonempty ih =>
      have inside : interior tokens ≠ [] := by simpa using nonempty
      have wrapped' : isWrapped (tokens.map Token.inAscii) = true := by rwa [isWrapped_inAscii]
      have inside' : interior (tokens.map Token.inAscii) ≠ [] := by
        rwa [interior_inAscii, ne_eq, List.map_eq_nil_iff]
      rw [strip_of_isWrapped start wrapped inside, strip_of_isWrapped start wrapped' inside',
        interior_inAscii, ih]
  | case3 start tokens bare =>
      have notWrapped : isWrapped tokens = false := by simpa using bare
      rw [strip_of_not_isWrapped start notWrapped,
        strip_of_not_isWrapped start (by rwa [isWrapped_inAscii])]
      rfl

theorem balance_inAscii (depth : Nat) (tokens : List Token) :
    balance depth (tokens.map Token.inAscii) = (balance depth tokens).inAscii := by
  induction tokens generalizing depth with
  | nil =>
      by_cases closed : depth = 0 <;> simp [balance, closed, Balance.inAscii]
  | cons t rest ih =>
      simp only [List.map_cons, balance, Token.isOpen_inAscii, Token.isClose_inAscii, ih]
      split
      · rfl
      · split
        · cases depth <;> rfl
        · rfl

theorem unpaired?_inAscii (tokens : List Token) :
    unpaired? (tokens.map Token.inAscii) = (unpaired? tokens).map Token.inAscii := by
  rw [unpaired?, unpaired?, balance_inAscii]
  cases balance 0 tokens with
  | balanced => rfl
  | stray closer => rfl
  | unclosed =>
      have opens : Token.isOpen ∘ Token.inAscii = Token.isOpen := funext Token.isOpen_inAscii
      simp only [Balance.inAscii, List.find?_map, opens]

theorem candidates_inAscii (depth index : Nat) (tokens : List Token) :
    candidates depth index (tokens.map Token.inAscii) =
      (candidates depth index tokens).map Candidate.inAscii := by
  induction tokens generalizing depth index with
  | nil => rfl
  | cons t rest ih =>
      simp only [List.map_cons, candidates, Token.isOpen_inAscii, Token.isClose_inAscii,
        Token.isDelimiter_inAscii, Token.priority_inAscii, ih]
      split
      · rfl
      · split
        · rfl
        · split <;> rfl

theorem lightest?_inAscii (all : List Candidate) :
    lightest? (all.map Candidate.inAscii) = (lightest? all).map Candidate.inAscii := by
  induction all with
  | nil => rfl
  | cons c rest ih =>
      cases lightest : lightest? rest with
      | none =>
          rw [lightest, Option.map_none] at ih
          rw [List.map_cons, lightest?_cons_of_none lightest, lightest?_cons_of_none ih]
          rfl
      | some best =>
          rw [lightest, Option.map_some] at ih
          rw [List.map_cons, lightest?_cons_of_some lightest, lightest?_cons_of_some ih]
          rw [apply_ite (Option.map Candidate.inAscii)]
          rfl

theorem root_inAscii (tokens : List Token) :
    root (tokens.map Token.inAscii) =
      ((root tokens).map Candidate.inAscii).mapError ParseError.inAscii := by
  rw [root, root, unpaired?_inAscii, candidates_inAscii, lightest?_inAscii, List.head?_map,
    Option.map_map]
  cases unpaired? tokens with
  | some parenthesis => rfl
  | none => cases lightest? (candidates 0 0 tokens) <;> rfl

theorem operatorRoot_inAscii (tokens : List Token) :
    operatorRoot (tokens.map Token.inAscii) =
      ((operatorRoot tokens).map Candidate.inAscii).mapError ParseError.inAscii := by
  rw [operatorRoot, operatorRoot, root_inAscii, List.length_map]
  cases root tokens with
  | error e => rfl
  | ok c =>
      by_cases operator : c.token.kind ≠ .operator
      · simp only [Except.map, Except.mapError, Candidate.inAscii, Token.kind_inAscii, if_pos operator]
        rfl
      · by_cases edge : c.index = 0 ∨ c.index + 1 = tokens.length
        · simp only [Except.map, Except.mapError, Candidate.inAscii, Token.kind_inAscii,
            if_neg operator, if_pos edge]
          rfl
        · simp only [Except.map, Except.mapError, Candidate.inAscii, Token.kind_inAscii,
            if_neg operator, if_neg edge]

end Span

theorem Number.ofLiteral_toAscii (cs : List Char) : ofLiteral (cs.map toAscii) = ofLiteral cs := by
  have point : '.' ∈ cs.map toAscii ↔ '.' ∈ cs := Text.mem_map_toAscii_iff (by decide)
  have digits : Text.isDigit ∘ toAscii = Text.isDigit := funext Text.isDigit_toAscii
  have decimal : ofDecimal (cs.map toAscii) = ofDecimal cs := by
    simp only [ofDecimal, List.takeWhile_map, List.dropWhile_map, digits, ← List.map_drop,
      ← List.map_append, Text.numberOfDigits_map_toAscii, List.length_map]
  simp only [ofLiteral, point, decimal, Text.numberOfDigits_map_toAscii]

theorem Token.short_inAscii_iff (t : Token) : t.inAscii.Short ↔ t.Short := by
  rw [Short, Short, kind_inAscii, text_inAscii, Text.toList_inAscii, Text.length_inAscii,
    Text.mem_map_toAscii_iff (by decide)]

namespace Expr

open LineCalc.Span

theorem ofToken_inAscii {t : Token} (wellFormed : t.WellFormed) :
    ofToken t.inAscii = (ofToken t).mapError BuildError.inAscii := by
  by_cases literal : t.kind = .literal
  · have spelled := wellFormed.inAscii.spelled
    by_cases short : t.Short
    · have same : (Phrase.atom t.inAscii).expr = (Phrase.atom t).expr := by
        simp [Phrase.expr, literal, Number.ofLiteral_toAscii]
      rw [Phrase.ofToken_atom wellFormed.spelled short (.inl literal),
        Phrase.ofToken_atom spelled (t.short_inAscii_iff.mpr short) (.inl literal), same]
      rfl
    · rw [Phrase.ofToken_long wellFormed.spelled short,
        Phrase.ofToken_long spelled (mt t.short_inAscii_iff.mp short), Token.text_inAscii,
        Text.length_inAscii]
      rfl
  · have same := wellFormed.inAscii_eq_self literal
    by_cases identifier : t.kind = .identifier
    · rw [same, Phrase.ofToken_atom wellFormed.spelled (Token.short_of_kind_ne literal) (.inr identifier)]
      rfl
    · rw [Phrase.ofToken_no_atom (by simp [literal, identifier]),
        Phrase.ofToken_no_atom (by simp [literal, identifier])]
      rfl

def Plan.inAscii : Plan → Plan
  | done result => done (result.mapError BuildError.inAscii)
  | split cut left right => split cut left.inAscii right.inAscii

theorem plan_inAscii (start : Nat) {tokens : List Token} (wellFormed : ∀ t ∈ tokens, t.WellFormed) :
    plan start (tokens.map Token.inAscii) = (plan start tokens).inAscii := by
  have stripping := strip_inAscii start tokens
  cases stripped : strip start tokens with
  | error e =>
      rw [stripped] at stripping
      simp only [plan, stripped, stripping]
      rfl
  | ok inner =>
      obtain ⟨inside, span⟩ := inner
      obtain ⟨pairs, encloses⟩ := encloses_of_strip stripped
      rw [stripped] at stripping
      cases span with
      | nil =>
          simp only [plan, stripped, stripping]
          rfl
      | cons t rest =>
          cases rest with
          | nil =>
              have leaf := ofToken_inAscii (wellFormed t (encloses.mem (by simp)))
              simp only [plan, stripped, stripping, Except.map, Except.mapError, Span.inAscii,
                List.map_cons, List.map_nil, leaf]
              rfl
          | cons u rest =>
              have rooting := operatorRoot_inAscii (t :: u :: rest)
              cases root : operatorRoot (t :: u :: rest) with
              | error e =>
                  rw [root] at rooting
                  simp only [plan, stripped, stripping, Except.map, Except.mapError, Span.inAscii,
                    List.map_cons, root] at rooting ⊢
                  simp only [rooting]
                  rfl
              | ok c =>
                  have symbol : Text.inAscii c.token.text = c.token.text := by
                    obtain ⟨_, lightest, operator, _⟩ := operatorRoot_eq_ok_iff.mp root
                    obtain ⟨front, behind, split, _⟩ := mem_candidates (mem_of_lightest? lightest)
                    have member : c.token ∈ tokens := encloses.mem (by simp [split])
                    have same := (wellFormed c.token member).inAscii_eq_self (by simp [operator])
                    exact congrArg Token.text same
                  rw [root] at rooting
                  simp only [plan, stripped, stripping, Except.map, Except.mapError, Span.inAscii,
                    List.map_cons, root] at rooting ⊢
                  simp only [rooting, Candidate.inAscii, Token.text_inAscii, symbol, Plan.inAscii,
                    Span.inAscii, List.map_take, List.map_drop, List.map_cons, List.length_cons,
                    List.length_map]

end Expr

def Building.inAscii (b : Building) : Building := ⟨b.splits, b.result.mapError BuildError.inAscii⟩

theorem Building.join_inAscii (cut : Split) (left right : Building) :
    join cut left.inAscii right.inAscii = (join cut left right).inAscii := by
  obtain ⟨leftSplits, leftResult⟩ := left
  obtain ⟨rightSplits, rightResult⟩ := right
  cases leftResult with
  | error e => rfl
  | ok a =>
      cases rightResult with
      | error e => rfl
      | ok b =>
          simp only [join, inAscii, Except.mapError, Except.bind, Expr.join]
          cases Operator.ofSymbol? cut.symbol <;> rfl

namespace Expr

theorem build_inAscii (first : Option Int) (levels start : Nat) {tokens : List Token}
    (wellFormed : ∀ t ∈ tokens, t.WellFormed) :
    build first levels start (tokens.map Token.inAscii) =
      (build first levels start tokens).inAscii := by
  induction levels generalizing start tokens with
  | zero => rfl
  | succ levels ih =>
      rw [build_succ, build_succ, plan_inAscii start wellFormed]
      cases planned : plan start tokens with
      | done result => rfl
      | split cut left right =>
          obtain ⟨early, late⟩ := mem_of_plan planned
          have builtLeft := ih left.start fun t member => wellFormed t (early t member)
          have builtRight := ih right.start fun t member => wellFormed t (late t member)
          simp only [Plan.inAscii, Plan.carryOut, Span.inAscii, builtLeft, builtRight,
            Building.join_inAscii]

theorem ofTokens_inAscii (stack : Stack) {tokens : List Token}
    (wellFormed : ∀ t ∈ tokens, t.WellFormed) :
    ofTokens stack (tokens.map Token.inAscii) = (ofTokens stack tokens).inAscii := by
  rw [ofTokens, ofTokens, List.head?_map, Option.map_map]
  exact build_inAscii _ stack.spanRoom 0 wellFormed

end Expr

end LineCalc
