import LineCalc.Expr.Dump
import LineCalc.Proofs.Expr.Cells

namespace LineCalc

def Value.IsLong : Value → Prop
  | number (.int n) => digitLimit < (Nat.toDigits 10 n.natAbs).length
  | _ => False

namespace Value

instance decidableIsLong : DecidablePred IsLong
  | number (.int n) => inferInstanceAs (Decidable (digitLimit < (Nat.toDigits 10 n.natAbs).length))
  | number (.float _) => inferInstanceAs (Decidable False)
  | bool _ => inferInstanceAs (Decidable False)

theorem isLong_int_iff {n : Int} :
    (number (.int n)).IsLong ↔ Nat.pow 10 digitLimit ≤ n.natAbs := by
  rw [IsLong, ← Nat.not_le, Nat.length_toDigits_le_iff (by decide) (by decide), Nat.not_lt,
    Nat.pow_eq]

theorem text_int_of_not_isLong {n : Int} (short : ¬ (number (.int n)).IsLong) :
    (number (.int n)).text = .ok (toString n) := by
  rw [text, Number.text, integerText, if_neg (mt isLong_int_iff.mpr short)]

variable {value : Value}

theorem text_of_isLong (long : value.IsLong) : value.text = .error .integerTooLong := by
  match value, long with
  | number (.int n), long => rw [text, Number.text, integerText, if_pos (isLong_int_iff.mp long)]

theorem exists_text_of_not_isLong (short : ¬ value.IsLong) : ∃ s, value.text = .ok s := by
  match value, short with
  | bool true, _ => exact ⟨_, rfl⟩
  | bool false, _ => exact ⟨_, rfl⟩
  | number (.float x), _ => exact ⟨_, rfl⟩
  | number (.int n), short => exact ⟨_, text_int_of_not_isLong short⟩

end Value

/-- A side of an operator. A row of sides leads from a whole to one of its parts. -/
inductive Side
  | left | right
  deriving DecidableEq, Repr

inductive Node
  | literal (value : Value)
  | var (name : String) (value : Value)
  | operator (op : Operator)
  | foreign (kind : String)
  deriving DecidableEq

namespace Expr

def clearTargets : Expr → Expr
  | literal value => literal value
  | var name value => var name value
  | binary .assign (var name _) right => binary .assign (var name .blank) right.clearTargets
  | binary op left right => binary op left.clearTargets right.clearTargets
  | foreign kind => foreign kind

def isPlain : Expr → Bool
  | binary _ left right => left.isPlain && right.isPlain
  | foreign _ => false
  | _ => true

def leaves : Expr → List Value
  | literal value => [value]
  | var _ value => [value]
  | binary _ left right => left.leaves ++ right.leaves
  | foreign _ => []

theorem clearTargets_binary {op : Operator} {left : Expr} (right : Expr)
    (keep : op ≠ .assign ∨ left.isVariable = false) :
    (binary op left right).clearTargets = binary op left.clearTargets right.clearTargets := by
  cases left with
  | var name value =>
      have compute : op ≠ .assign := by simpa [isVariable] using keep
      cases op with
      | assign => contradiction
      | _ => rfl
  | _ => cases op <;> rfl

/-- An evaluation writes to cells that are assigned to, and to nothing else. -/
theorem clearTargets_tree (e : Expr) (room : Nat) :
    (e.evaluateWithin room).tree.clearTargets = e.clearTargets := by
  induction e generalizing room with
  | literal value => rfl
  | var name value => rfl
  | foreign kind => rfl
  | binary op left right ihLeft ihRight =>
      cases operation op left with
      | assign name old =>
          rw [evaluateWithin_assign]
          cases (right.evaluateWithin (room - 2)).result <;> simp only [clearTargets, ihRight]
      | refuse target => rw [evaluateWithin_assign_other _ _ _ target]
      | compute compute =>
          rw [evaluateWithin_binary _ _ _ compute, clearTargets_binary _ (.inl compute)]
          cases (left.evaluateWithin (room - 1)).result <;>
            simp only [clearTargets_binary _ (.inl compute), ihLeft, ihRight]

theorem height_clearTargets (e : Expr) : e.clearTargets.height = e.height := by
  fun_induction clearTargets e <;> simp_all [height]

theorem isPlain_clearTargets (e : Expr) : e.clearTargets.isPlain = e.isPlain := by
  fun_induction clearTargets e <;> simp_all [isPlain]

theorem height_evaluate_tree (stack : Stack) (e : Expr) :
    (e.evaluate stack).tree.height = e.height :=
  calc
    (e.evaluate stack).tree.height = (e.evaluate stack).tree.clearTargets.height :=
      (height_clearTargets _).symm
    _ = e.clearTargets.height := congrArg height (clearTargets_tree e _)
    _ = e.height := height_clearTargets e

theorem isPlain_evaluate_tree (stack : Stack) (e : Expr) :
    (e.evaluate stack).tree.isPlain = e.isPlain :=
  calc
    (e.evaluate stack).tree.isPlain = (e.evaluate stack).tree.clearTargets.isPlain :=
      (isPlain_clearTargets _).symm
    _ = e.clearTargets.isPlain := congrArg isPlain (clearTargets_tree e _)
    _ = e.isPlain := isPlain_clearTargets e

inductive Dumped (e : Expr) {α : Type} : Except Fault α → Prop
  | shown (dump : α) (short : ∀ value ∈ e.leaves, ¬ value.IsLong) : Dumped e (.ok dump)
  | tooLong {value : Value} (member : value ∈ e.leaves) (long : value.IsLong) :
      Dumped e (.error .integerTooLong)

theorem Dumped.leaf {e : Expr} {value : Value} (alone : e.leaves = [value]) {α : Type}
    (line : String → α) : e.Dumped (value.text >>= fun text => pure (line text)) := by
  by_cases long : value.IsLong
  · rw [Value.text_of_isLong long]
    exact .tooLong (by simp [alone]) long
  · rcases Value.exists_text_of_not_isLong long with ⟨text, written⟩
    rw [written]
    exact .shown _ (by simpa [alone] using long)

theorem Dumped.binary {op : Operator} {left right : Expr} {α β γ : Type} {first : Except Fault α}
    {second : Except Fault β} (join : α → β → γ) (dumpedLeft : left.Dumped first)
    (dumpedRight : right.Dumped second) :
    (Expr.binary op left right).Dumped
      (first >>= fun a => second >>= fun b => pure (join a b)) := by
  cases dumpedLeft with
  | tooLong member long => exact .tooLong (List.mem_append_left _ member) long
  | shown a shortLeft =>
      cases dumpedRight with
      | tooLong member long => exact .tooLong (List.mem_append_right _ member) long
      | shown b shortRight =>
          refine .shown _ ?_
          intro value member
          rcases List.mem_append.mp member with early | late
          · exact shortLeft value early
          · exact shortRight value late

theorem dumped_dumpLines {e : Expr} {levels : Nat} (plain : e.isPlain = true)
    (low : e.height ≤ levels) (indent : Int) : e.Dumped (e.dumpLines levels indent) := by
  induction levels generalizing e indent with
  | zero => cases e <;> simp [height] at low
  | succ levels ih =>
      cases e with
      | foreign kind => simp [isPlain] at plain
      | literal value => exact .leaf rfl _
      | var name value => exact .leaf rfl _
      | binary op left right =>
          simp only [isPlain, Bool.and_eq_true] at plain
          simp only [height, Nat.add_le_add_iff_right, Nat.max_le] at low
          exact .binary _ (ih plain.1 low.1 _) (ih plain.2 low.2 _)

theorem dumped_dump {e : Expr} {stack : Stack} (plain : e.isPlain = true)
    (low : e.height ≤ stack.leafRoom) (indent : Int) : e.Dumped (e.dump stack indent) := by
  have dumped := dumped_dumpLines plain low indent
  unfold dump
  generalize e.dumpLines stack.leafRoom indent = result at dumped
  cases dumped with
  | shown lines short => exact .shown _ short
  | tooLong member long => exact .tooLong member long

end Expr

end LineCalc
