import LineCalc.Proofs.Expr.Parsing
import LineCalc.Proofs.Expr.Writes

/-! The limit on open calls.

Building and evaluation open calls as they go down and are refused when there is no room for the next
one. Without a limit they are plain recursions, the one on ever shorter spans and the other on the sides
of an expression. The limit changes nothing of what these come to, or puts a refusal in its place: then
the splits or the writes that were made are the first ones of the plain recursion. Parentheses around a
whole span take no call. -/

namespace LineCalc

open LineCalc.Span

namespace Evaluation

def assign (name : String) (old : Value) (source : Evaluation) : Evaluation :=
  match source.result with
  | .error e => ⟨.error e, .binary .assign (.var name old) source.tree, source.writes⟩
  | .ok value =>
    ⟨.ok value, .binary .assign (.var name value) source.tree, source.writes ++ [⟨name, value⟩]⟩

def operate (op : Operator) (right : Expr) (first second : Evaluation) : Evaluation :=
  match first.result with
  | .error e => ⟨.error e, .binary op first.tree right, first.writes⟩
  | .ok a =>
    ⟨second.result.bind (op.apply a), .binary op first.tree second.tree,
      first.writes ++ second.writes⟩

end Evaluation

def Building.join (split : Split) (left right : Building) : Building :=
  match left.result with
  | .error e => ⟨split :: left.splits, .error e⟩
  | .ok a => ⟨split :: left.splits ++ right.splits, right.result.bind (Expr.join split.symbol a)⟩

namespace Expr

def evaluateAll : Expr → Evaluation
  | literal value => ⟨.ok value, literal value, []⟩
  | var name value => ⟨.ok value, var name value, []⟩
  | foreign kind => ⟨.error (.unknownNode kind), foreign kind, []⟩
  | binary .assign (var name old) right => .assign name old right.evaluateAll
  | binary .assign left right => ⟨.error .targetNotVariable, binary .assign left right, []⟩
  | binary op left right => .operate op right left.evaluateAll right.evaluateAll

/-- What building makes of a span before it goes down a level. -/
inductive Plan
  | done (result : Except BuildError Expr)
  | split (cut : Split) (left right : Span)

def plan (start : Nat) (tokens : List Token) : Plan :=
  match strip start tokens with
  | .error e => .done (.error (.parse e))
  | .ok ⟨_, []⟩ => .done (.error (.parse ⟨.missingOperand, none⟩))
  | .ok ⟨_, [t]⟩ => .done (ofToken t)
  | .ok ⟨start, tokens⟩ =>
    match operatorRoot tokens with
    | .error e => .done (.error (.parse e))
    | .ok c =>
      .split ⟨start, start + tokens.length, start + c.index, c.token.text⟩
        ⟨start, tokens.take c.index⟩ ⟨start + c.index + 1, tokens.drop (c.index + 1)⟩

def Plan.carryOut (side : Span → Building) : Plan → Building
  | done result => ⟨[], result⟩
  | split cut left right => .join cut (side left) (side right)

theorem length_lt_of_plan {start : Nat} {tokens : List Token} {cut : Split} {left right : Span}
    (planned : plan start tokens = .split cut left right) :
    left.tokens.length < tokens.length ∧ right.tokens.length < tokens.length := by
  unfold plan at planned
  split at planned
  · contradiction
  · contradiction
  · contradiction
  · next inside span _ _ stripped =>
    rcases encloses_of_strip stripped with ⟨pairs, encloses⟩
    have shorter := encloses.length_eq
    split at planned
    · contradiction
    · next c root =>
      cases planned
      have inner := (operatorRoot_eq_ok_iff.mp root).2.1
      have place := (index_of_mem_candidates (mem_of_lightest? inner)).2
      simp only [List.length_take, List.length_drop]
      omega

def buildAll (start : Nat) (tokens : List Token) : Building :=
  match _ : plan start tokens with
  | .done result => ⟨[], result⟩
  | .split cut left right =>
    .join cut (buildAll left.start left.tokens) (buildAll right.start right.tokens)
termination_by tokens.length
decreasing_by
  · exact (length_lt_of_plan ‹_›).1
  · exact (length_lt_of_plan ‹_›).2

theorem evaluateAll_assign_other {left : Expr} (right : Expr) (target : left.isVariable = false) :
    (binary .assign left right).evaluateAll =
      ⟨.error .targetNotVariable, binary .assign left right, []⟩ := by
  cases left with
  | var name value => simp [isVariable] at target
  | _ => rfl

theorem evaluateAll_binary {op : Operator} (compute : op ≠ .assign) (left right : Expr) :
    (binary op left right).evaluateAll = .operate op right left.evaluateAll right.evaluateAll := by
  cases op with
  | assign => contradiction
  | _ => rfl

theorem evaluateWithin_frames (e : Expr) : e.evaluateWithin e.frames = e.evaluateAll := by
  induction e with
  | literal value => rfl
  | var name value => rfl
  | foreign kind => rfl
  | binary op left right ihLeft ihRight =>
      cases operation op left with
      | assign name old =>
          rw [frames, evaluateWithin_assign, Nat.add_sub_cancel, ihRight]
          rfl
      | refuse target =>
          rw [evaluateAll_assign_other right target, frames_assign_other left right target]
          exact evaluateWithin_assign_other _ _ _ target
      | compute compute =>
          have first : left.evaluateWithin (max left.frames right.frames) = left.evaluateAll := by
            rw [evaluateWithin_of_frames_le (Nat.le_refl _) (Nat.le_max_left _ _), ihLeft]
          have second : right.evaluateWithin (max left.frames right.frames) = right.evaluateAll := by
            rw [evaluateWithin_of_frames_le (Nat.le_refl _) (Nat.le_max_right _ _), ihRight]
          rw [frames_binary left right compute, evaluateWithin_binary _ _ _ compute,
            Nat.add_sub_cancel, first, second, evaluateAll_binary compute]
          rfl

theorem evaluate_eq_evaluateAll {stack : Stack} {e : Expr} (low : e.frames ≤ stack.nodeRoom) :
    e.evaluate stack = e.evaluateAll := by
  rw [← evaluateWithin_frames e]
  exact evaluateWithin_of_frames_le (Nat.le_refl _) low

theorem frames_le (e : Expr) : e.frames ≤ 2 * e.height := by
  induction e with
  | binary op left right ihLeft ihRight =>
      have taller : (binary op left right).height = max left.height right.height + 1 := rfl
      cases operation op left with
      | assign name old =>
          rw [frames]
          omega
      | refuse target =>
          rw [frames_assign_other left right target]
          omega
      | compute compute =>
          rw [frames_binary left right compute]
          omega
  | _ => simp [frames, height]

theorem build_succ (first : Option Int) (levels start : Nat) (tokens : List Token) :
    build first (levels + 1) start tokens =
      (plan start tokens).carryOut fun span => build first levels span.start span.tokens := by
  cases stripped : strip start tokens with
  | error e =>
      simp only [build, plan, stripped]
      rfl
  | ok stripping =>
      obtain ⟨inside, span⟩ := stripping
      cases span with
      | nil =>
          simp only [build, plan, stripped]
          rfl
      | cons t rest =>
          cases rest with
          | nil =>
              simp only [build, plan, stripped]
              rfl
          | cons u rest =>
              cases root : operatorRoot (t :: u :: rest) with
              | error e =>
                  simp only [build, plan, stripped, root]
                  rfl
              | ok c =>
                  simp only [build, plan, stripped, root]
                  rfl

theorem ofTokens_of_done {stack : Stack} {tokens : List Token} {result : Except BuildError Expr}
    (room : 0 < stack.spanRoom) (planned : plan 0 tokens = .done result) :
    ofTokens stack tokens = ⟨[], result⟩ := by
  obtain ⟨levels, more⟩ := Nat.exists_eq_add_one.mpr room
  rw [ofTokens, more, build_succ, planned]
  rfl

theorem buildAll_eq (start : Nat) (tokens : List Token) :
    buildAll start tokens =
      (plan start tokens).carryOut fun span => buildAll span.start span.tokens := by
  rw [buildAll]
  cases plan start tokens <;> rfl

end Expr

/-- What a limit makes of a building: nothing, or a refusal at `first` behind some of its splits. -/
inductive Building.Limited (first : Option Int) (whole : Building) : Building → Prop
  | whole : Limited first whole whole
  | tooDeep {splits : List Split} (front : splits <+: whole.splits) :
      Limited first whole ⟨splits, .error (.parse ⟨.tooDeep, first⟩)⟩

/-- What a limit makes of an evaluation: nothing, or a refusal behind some of its writes. -/
inductive Evaluation.Limited (whole : Evaluation) : Evaluation → Prop
  | whole : Limited whole whole
  | tooDeep (tree : Expr) {writes : List Write} (front : writes <+: whole.writes) :
      Limited whole ⟨.error .tooDeep, tree, writes⟩

namespace Building

variable {first : Option Int} {split : Split} {left right partLeft partRight : Building}

theorem cons_prefix_join (split : Split) (left right : Building) :
    split :: left.splits <+: (join split left right).splits := by
  unfold join
  split
  · exact List.prefix_rfl
  · exact List.prefix_append _ _

theorem Limited.join (limitedLeft : left.Limited first partLeft)
    (limitedRight : right.Limited first partRight) :
    (Building.join split left right).Limited first (Building.join split partLeft partRight) := by
  cases limitedLeft with
  | tooDeep front =>
      have longer : split :: _ <+: split :: left.splits := (List.prefix_cons_inj split).mpr front
      exact .tooDeep (longer.trans (cons_prefix_join split left right))
  | whole =>
      cases limitedRight with
      | whole => exact .whole
      | tooDeep front =>
          unfold Building.join
          cases left.result with
          | error e => exact .whole
          | ok a => exact .tooDeep ((List.prefix_append_right_inj _).mpr front)

theorem result_join_eq_ok_iff {e : Expr} :
    (join split left right).result = .ok e ↔
      ∃ a b, left.result = .ok a ∧ right.result = .ok b ∧ Expr.join split.symbol a b = .ok e := by
  unfold join
  cases left.result with
  | error error => simp
  | ok a =>
      cases right.result with
      | error error => simp [Except.bind]
      | ok b => simp [Except.bind]

end Building

namespace Evaluation

theorem prefix_assign (name : String) (old : Value) (source : Evaluation) :
    source.writes <+: (assign name old source).writes := by
  unfold assign
  split
  · exact List.prefix_rfl
  · exact List.prefix_append _ _

theorem prefix_operate (op : Operator) (right : Expr) (first second : Evaluation) :
    first.writes <+: (operate op right first second).writes := by
  unfold operate
  split
  · exact List.prefix_rfl
  · exact List.prefix_append _ _

theorem Limited.assign {source part : Evaluation} (limited : source.Limited part) (name : String)
    (old : Value) :
    (Evaluation.assign name old source).Limited (Evaluation.assign name old part) := by
  cases limited with
  | whole => exact .whole
  | tooDeep tree front => exact .tooDeep _ (front.trans (prefix_assign name old source))

theorem Limited.operate {first second partFirst partSecond : Evaluation}
    (limitedFirst : first.Limited partFirst) (limitedSecond : second.Limited partSecond)
    (op : Operator) (right : Expr) :
    (Evaluation.operate op right first second).Limited
      (Evaluation.operate op right partFirst partSecond) := by
  cases limitedFirst with
  | tooDeep tree front => exact .tooDeep _ (front.trans (prefix_operate op right first second))
  | whole =>
      cases limitedSecond with
      | whole => exact .whole
      | tooDeep tree front =>
          unfold Evaluation.operate
          cases first.result with
          | error e => exact .whole
          | ok a => exact .tooDeep _ ((List.prefix_append_right_inj _).mpr front)

end Evaluation

namespace Expr

theorem limited_grant (room calls : Nat) (result : Except EvalError Value) (e : Expr) :
    Evaluation.Limited ⟨result, e, []⟩ ⟨grant room calls result, e, []⟩ := by
  by_cases enough : calls ≤ room
  · rw [grant_of_le enough]
    exact .whole
  · rw [grant_of_lt (Nat.lt_of_not_le enough)]
    exact .tooDeep e List.nil_prefix

theorem limited_evaluateWithin (e : Expr) (room : Nat) :
    e.evaluateAll.Limited (e.evaluateWithin room) := by
  induction e generalizing room with
  | literal value => exact limited_grant room 1 _ _
  | var name value => exact limited_grant room 1 _ _
  | foreign kind => exact limited_grant room 1 _ _
  | binary op left right ihLeft ihRight =>
      cases operation op left with
      | assign name old =>
          rw [evaluateWithin_assign]
          exact (ihRight _).assign name old
      | refuse target =>
          rw [evaluateAll_assign_other right target, evaluateWithin_assign_other _ _ _ target]
          exact limited_grant room 2 _ _
      | compute compute =>
          rw [evaluateAll_binary compute, evaluateWithin_binary _ _ _ compute]
          exact (ihLeft _).operate (ihRight _) op right

theorem limited_build (first : Option Int) (levels start : Nat) (tokens : List Token) :
    (buildAll start tokens).Limited first (build first levels start tokens) := by
  induction levels generalizing start tokens with
  | zero => exact .tooDeep (List.nil_prefix)
  | succ levels ih =>
      rw [build_succ, buildAll_eq]
      cases plan start tokens with
      | done result => exact .whole
      | split cut left right => exact (ih _ _).join (ih _ _)

section Heights

variable {first : Option Int} {levels start : Nat} {tokens : List Token} {e : Expr}

theorem height_ofToken {t : Token} (built : ofToken t = .ok e) : e.height = 1 := by
  rw [(Phrase.ofToken_eq_ok_iff.mp built).2.2.2]
  exact Phrase.height_atom t

theorem height_of_done (planned : plan start tokens = .done (.ok e)) : e.height = 1 := by
  unfold plan at planned
  split at planned
  · cases planned
  · cases planned
  · exact height_ofToken (Plan.done.inj planned)
  · split at planned <;> cases planned

theorem height_join {symbol : String} {a b : Expr} (joined : join symbol a b = .ok e) :
    e.height = max a.height b.height + 1 := by
  unfold join at joined
  split at joined
  · cases joined
    rfl
  · contradiction

theorem height_le_of_build (built : (build first levels start tokens).result = .ok e) :
    e.height ≤ levels := by
  induction levels generalizing start tokens e with
  | zero => contradiction
  | succ levels ih =>
      rw [build_succ] at built
      cases planned : plan start tokens with
      | done result =>
          rw [planned, Plan.carryOut] at built
          rw [height_of_done (planned.trans (congrArg Plan.done built))]
          omega
      | split cut left right =>
          rw [planned] at built
          obtain ⟨a, b, builtLeft, builtRight, joined⟩ := Building.result_join_eq_ok_iff.mp built
          have lowLeft := ih builtLeft
          have lowRight := ih builtRight
          rw [height_join joined]
          omega

theorem build_of_height_le (built : (buildAll start tokens).result = .ok e)
    (low : e.height ≤ levels) : build first levels start tokens = buildAll start tokens := by
  induction levels generalizing start tokens e with
  | zero =>
      have positive := Phrase.one_le_height e
      omega
  | succ levels ih =>
      rw [build_succ]
      rw [buildAll_eq] at built ⊢
      cases planned : plan start tokens with
      | done result => rfl
      | split cut left right =>
          rw [planned] at built
          obtain ⟨a, b, builtLeft, builtRight, joined⟩ := Building.result_join_eq_ok_iff.mp built
          rw [height_join joined] at low
          rw [Plan.carryOut, Plan.carryOut, ih builtLeft (by omega), ih builtRight (by omega)]

theorem result_build_eq_ok_iff :
    (build first levels start tokens).result = .ok e ↔
      (buildAll start tokens).result = .ok e ∧ e.height ≤ levels := by
  constructor
  · intro built
    refine ⟨?_, height_le_of_build built⟩
    have limited := limited_build first levels start tokens
    generalize build first levels start tokens = part at built limited
    cases limited with
    | whole => exact built
    | tooDeep front => cases built
  · intro built
    rw [build_of_height_le built.1 built.2]
    exact built.1

end Heights

end Expr

namespace Span

variable {inner row : List Token} {pairs : Nat}

theorem Encloses.balanced (encloses : Encloses inner pairs row)
    (balanced : balance 0 inner = .balanced) : balance 0 row = .balanced := by
  induction encloses with
  | bare => exact balanced
  | pair opened closed _ ih =>
      rw [List.cons_append, balance_open _ 0 opened, balance_append ih 1,
        balance_close_succ [] 0 closed]
      rfl

theorem Encloses.ne_nil (encloses : Encloses inner pairs row) (nonempty : inner ≠ []) :
    row ≠ [] := by
  cases encloses with
  | bare => exact nonempty
  | pair => simp

theorem Encloses.strip_eq (encloses : Encloses inner pairs row) (nonempty : inner ≠ [])
    (balanced : balance 0 inner = .balanced) (start : Nat) :
    strip start row = strip (start + pairs) inner := by
  induction encloses generalizing start with
  | bare => rfl
  | @pair pairs row opener closer opened closed within ih =>
      have wrapped : isWrapped (opener :: row ++ [closer]) = true := by
        rw [List.cons_append, isWrapped, opened, Bool.true_and,
          closesLast_append (within.balanced balanced) 0, closesLast_close_zero [] closed]
        rfl
      have inside : interior (opener :: row ++ [closer]) = row := by simp [interior]
      have further : start + (pairs + 1) = start + 1 + pairs := by omega
      rw [strip_of_isWrapped start wrapped (by rw [inside]; exact within.ne_nil nonempty), inside,
        ih (start + 1), further]

end Span

namespace Expr

/-- Parentheses around a whole row take no level, whatever the limit. -/
theorem build_of_encloses {inner row : List Token} {pairs : Nat} (encloses : Encloses inner pairs row)
    (nonempty : inner ≠ []) (balanced : balance 0 inner = .balanced) (first : Option Int)
    (levels start : Nat) :
    build first levels start row = build first levels (start + pairs) inner := by
  cases levels with
  | zero => rfl
  | succ levels => simp only [build, encloses.strip_eq nonempty balanced start]

end Expr

theorem Phrase.Derives.buildAll_result {p : Phrase} {level : Nat} (derives : p.Derives level)
    (wellFormed : ∀ t ∈ p.tokens, t.WellFormed) (short : ∀ t ∈ p.tokens, t.Short) (start : Nat) :
    (Expr.buildAll start p.tokens).result = .ok p.expr := by
  have built := derives.build_result wellFormed short none p.expr.height start
  rw [if_pos (Nat.le_refl _)] at built
  exact (Expr.result_build_eq_ok_iff.mp built).1

namespace Expr

/-- The limit on open calls replaces what building and evaluation come to by a refusal, and does nothing
else, wherever on the stack they are called. A row of tokens is built if there is room for a call on each
level of its tree: for 300 levels, if 301 calls and those set aside can be opened, and never for more
than 1000. The writes of an evaluation that is refused are the first ones of the evaluation without a
limit, and no cell is changed but by them. Parentheses around a whole row take no call. -/
theorem limit_only_refuses :
    (∀ (stack : Stack) (tokens : List Token),
      (buildAll 0 tokens).Limited (tokens.head?.map Token.position) (ofTokens stack tokens) ∧
      ∀ e, (buildAll 0 tokens).result = .ok e →
        (e.height ≤ stack.spanRoom → ofTokens stack tokens = buildAll 0 tokens) ∧
        (stack.spanRoom < e.height → ∀ other, (ofTokens stack tokens).result ≠ .ok other) ∧
        (stack.depth + stack.span + 301 ≤ Stack.limit → e.height ≤ 300 →
          ofTokens stack tokens = buildAll 0 tokens) ∧
        (1000 < e.height → ∀ other, (ofTokens stack tokens).result ≠ .ok other)) ∧
    (∀ (stack : Stack) (e : Expr),
      e.evaluateAll.Limited (e.evaluate stack) ∧
      (e.frames ≤ stack.nodeRoom → e.evaluate stack = e.evaluateAll) ∧
      (stack.depth + stack.node + 601 ≤ Stack.limit → e.height ≤ 300 →
        e.evaluate stack = e.evaluateAll) ∧
      (e.evaluate stack).tree = e.replay (e.evaluate stack).writes ∧
      e.evaluateAll.tree = e.replay e.evaluateAll.writes) ∧
    ∀ (inner row : List Token) (pairs : Nat), inner ≠ [] → balance 0 inner = .balanced →
      Encloses inner pairs row → ∀ (first : Option Int) (levels start : Nat),
        build first levels start row = build first levels (start + pairs) inner := by
  refine ⟨?_, ?_, ?_⟩
  · intro stack tokens
    refine ⟨limited_build _ _ _ _, ?_⟩
    intro e built
    have enough (low : e.height ≤ stack.spanRoom) : ofTokens stack tokens = buildAll 0 tokens :=
      build_of_height_le built low
    have few (high : stack.spanRoom < e.height) (other : Expr) :
        (ofTokens stack tokens).result ≠ .ok other := by
      intro result
      have both := result_build_eq_ok_iff.mp result
      cases both.1.symm.trans built
      exact absurd both.2 (Nat.not_le.mpr high)
    refine ⟨enough, few, ?_, ?_⟩
    · intro room low
      apply enough
      unfold Stack.spanRoom
      omega
    · intro high
      have limit : stack.spanRoom ≤ 1000 := Nat.sub_le _ _
      exact few (Nat.lt_of_le_of_lt limit high)
  · intro stack e
    refine ⟨limited_evaluateWithin e _, evaluate_eq_evaluateAll, ?_, (replay_writes e _).symm, ?_⟩
    · intro room low
      have frames := e.frames_le
      apply evaluate_eq_evaluateAll
      unfold Stack.nodeRoom
      omega
    · rw [← evaluateWithin_frames e]
      exact (replay_writes e e.frames).symm
  · intro inner row pairs nonempty balanced encloses first levels start
    exact build_of_encloses encloses nonempty balanced first levels start

end Expr

def Phrase.ones : Nat → Phrase
  | 0 => atom ⟨"1", .literal, 1000, 0⟩
  | count + 1 => chain (ones count) .add ⟨"+", .operator, 1, 1⟩ (atom ⟨"1", .literal, 1000, 0⟩)

namespace Phrase

theorem derives_ones (count : Nat) : (ones count).Derives 1 := by
  induction count with
  | zero => exact (Derives.atom (.inl rfl)).loosen (by decide)
  | succ count ih =>
      exact .chain (by decide) rfl rfl ih ((Derives.atom (.inl rfl)).loosen (by decide))

theorem height_ones (count : Nat) : (ones count).expr.height = count + 1 := by
  induction count with
  | zero => rfl
  | succ count ih =>
      have step : (ones (count + 1)).expr.height = max (ones count).expr.height 1 + 1 := rfl
      rw [step, ih]
      omega

theorem mem_ones {count : Nat} {t : Token} (member : t ∈ (ones count).tokens) :
    t = ⟨"1", .literal, 1000, 0⟩ ∨ t = ⟨"+", .operator, 1, 1⟩ := by
  induction count with
  | zero => exact .inl (List.mem_singleton.mp member)
  | succ count ih =>
      simp only [ones, tokens, List.mem_append, List.mem_cons, List.not_mem_nil, or_false] at member
      rcases member with early | sign | last
      · exact ih early
      · exact .inr sign
      · exact .inl last

theorem wellFormed_ones (count : Nat) : ∀ t ∈ (ones count).tokens, t.WellFormed := by
  have scanned : Token.scan "1+" = .ok [⟨"1", .literal, 1000, 0⟩, ⟨"+", .operator, 1, 1⟩] := by
    decide +kernel
  intro t member
  apply Token.wellFormed_of_scan scanned
  simpa using mem_ones member

theorem short_ones (count : Nat) : ∀ t ∈ (ones count).tokens, t.Short := by
  intro t member
  rcases mem_ones member with one | plus
  · subst one
    exact fun _ _ => by decide
  · subst plus
    exact Token.short_of_kind_ne (by decide)

theorem buildAll_ones (count : Nat) :
    (Expr.buildAll 0 (ones count).tokens).result = .ok (ones count).expr :=
  (derives_ones count).buildAll_result (wellFormed_ones count) (short_ones count) 0

end Phrase

/-- A sum of 1001 ones has a tree of as many levels and is not built, one of 901 ones is built where few
calls are open. `1+1` is built and evaluated as without a limit, and two pairs of parentheses around it
change nothing. -/
theorem Expr.limit_only_refuses_ones :
    1000 < (Phrase.ones 1000).expr.height ∧
    (∀ other, (ofTokens .empty (Phrase.ones 1000).tokens).result ≠ .ok other) ∧
    ofTokens .empty (Phrase.ones 900).tokens = buildAll 0 (Phrase.ones 900).tokens ∧
    ofTokens .empty (Phrase.ones 1).tokens = buildAll 0 (Phrase.ones 1).tokens ∧
    (Phrase.ones 1).expr.evaluate .empty = (Phrase.ones 1).expr.evaluateAll ∧
    build none 2 0 (⟨"(", .delimiter, -1, 0⟩ :: (⟨"(", .delimiter, -1, 1⟩ :: (Phrase.ones 1).tokens ++
      [⟨")", .delimiter, -1, 5⟩]) ++ [⟨")", .delimiter, -1, 6⟩]) =
        build none 2 2 (Phrase.ones 1).tokens := by
  have high : 1000 < (Phrase.ones 1000).expr.height := by
    rw [Phrase.height_ones]
    decide
  have low : (Phrase.ones 1).expr.height ≤ 300 := by decide
  have fits : (Phrase.ones 900).expr.height ≤ Stack.empty.spanRoom := by
    rw [Phrase.height_ones]
    decide
  refine ⟨high, ?_, ?_, ?_, ?_, ?_⟩
  · exact ((limit_only_refuses.1 _ _).2 _ (Phrase.buildAll_ones 1000)).2.2.2 high
  · exact ((limit_only_refuses.1 _ _).2 _ (Phrase.buildAll_ones 900)).1 fits
  · exact ((limit_only_refuses.1 _ _).2 _ (Phrase.buildAll_ones 1)).2.2.1 (by decide) low
  · exact (limit_only_refuses.2.1 _ _).2.2.1 (by decide) low
  · exact limit_only_refuses.2.2 _ _ 2 (by decide) (by decide)
      (.pair (by decide) (by decide) (.pair (by decide) (by decide) .bare)) none 2 0

end LineCalc
