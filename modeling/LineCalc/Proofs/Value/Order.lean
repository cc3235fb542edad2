import Mathlib.Algebra.Order.Field.Power
import Mathlib.Algebra.Order.Field.Rat
import Mathlib.Order.WithBotTop
import Mathlib.Tactic.NormNum
import LineCalc.Proofs.Expr.Kinds

/-! The order of numbers.

Every number but a NaN has its place among the rational numbers with both infinities: an integer stands
for itself, and a finite double for a sign, a mantissa and a power of two. Comparisons compare places, so
they are one order of integers and doubles, exact however large the integers are. -/

namespace LineCalc

open Float.Model (UnpackedFloat Format)
open Float.Model.UnpackedFloat (unpack unpackExponent unpackMantissa unpackSign)

def unpackedPlace? : UnpackedFloat → Option (WithBotTop ℚ)
  | .notANumber => none
  | .infinity .negative => some ⊥
  | .infinity .positive => some ⊤
  | .zero _ => some (0 : ℚ)
  | .finite sign mantissa exponent _ => some ((sign.apply mantissa * 2 ^ exponent : ℚ))

namespace Number

/-- The place of a number among the rational numbers and both infinities. A NaN has none. -/
def place? : Number → Option (WithBotTop ℚ)
  | int n => some (n : ℚ)
  | float x => unpackedPlace? x.toModel.unpack

def isNaN : Number → Bool
  | int _ => false
  | float x => x.isNaN

theorem place?_eq_none_iff {n : Number} : n.place? = none ↔ n.isNaN = true := by
  cases n with
  | int n => simp [place?, isNaN]
  | float x =>
      change unpackedPlace? x.toModel.unpack = none ↔ x.toModel.unpack.isNaN = true
      cases x.toModel.unpack with
      | notANumber => exact ⟨fun _ => rfl, fun _ => rfl⟩
      | infinity sign => cases sign <;> exact ⟨nofun, nofun⟩
      | zero | finite => exact ⟨nofun, nofun⟩

end Number

namespace Binary64

def place? : Binary64 → Option (WithBotTop ℚ)
  | nan => none
  | infinite true => some ⊥
  | infinite false => some ⊤
  | finite negative mantissa exponent => some ((signed negative mantissa * 2 ^ exponent : ℚ))

section Fields

variable (bits : BitVec Format.binary64.numBits)

theorem toNat_unpackExponent :
    (unpackExponent bits).toNat = bits.toNat / Nat.pow 2 52 % Nat.pow 2 11 := by
  simp [unpackExponent, Nat.shiftRight_eq_div_pow]

theorem toNat_unpackMantissa : (unpackMantissa bits).toNat = bits.toNat % Nat.pow 2 52 := by
  simp [unpackMantissa]

theorem ofBitVec_unpackSign :
    UnpackedFloat.Sign.ofBitVec (unpackSign bits) =
      if Nat.pow 2 63 ≤ bits.toNat then .negative else .positive := by
  have bound : bits.toNat < 2 ^ 64 := bits.isLt
  have sign : unpackSign bits = bits.extractLsb' 63 1 := rfl
  have toNat : (unpackSign bits).toNat = bits.toNat / 2 ^ 63 % 2 := by
    simp [sign, Nat.shiftRight_eq_div_pow]
  have zero : unpackSign bits = 0#1 ↔ ¬ Nat.pow 2 63 ≤ bits.toNat := by
    rw [← BitVec.toNat_inj, toNat]
    simp only [BitVec.toNat_ofNat, Nat.pow_eq]
    omega
  simp only [UnpackedFloat.Sign.ofBitVec, zero, ite_not]

theorem unpackExponent_eq_neg_one_iff :
    unpackExponent bits = -1#_ ↔ bits.toNat / Nat.pow 2 52 % Nat.pow 2 11 = 2047 := by
  rw [← BitVec.toNat_inj, toNat_unpackExponent]
  rfl

theorem unpackExponent_eq_zero_iff :
    unpackExponent bits = 0#_ ↔ bits.toNat / Nat.pow 2 52 % Nat.pow 2 11 = 0 := by
  rw [← BitVec.toNat_inj, toNat_unpackExponent]
  rfl

theorem unpackMantissa_eq_zero_iff :
    unpackMantissa bits = 0#_ ↔ bits.toNat % Nat.pow 2 52 = 0 := by
  rw [← BitVec.toNat_inj, toNat_unpackMantissa]
  rfl

theorem toNat_leading_unpackMantissa :
    (1#1 ++ unpackMantissa bits).toNat = bits.toNat % Nat.pow 2 52 + Nat.pow 2 52 := by
  rw [BitVec.toNat_append, ← Nat.shiftLeft_add_eq_or_of_lt (unpackMantissa bits).isLt,
    toNat_unpackMantissa, Nat.add_comm]
  rfl

end Fields

theorem signed_eq_apply (negative : Prop) [Decidable negative] (mantissa : Nat) :
    signed (decide negative) mantissa =
      (if negative then .negative else .positive : UnpackedFloat.Sign).apply mantissa := by
  by_cases sign : negative <;> simp [signed, sign, UnpackedFloat.Sign.apply]

theorem place?_ofBits (bits : BitVec Format.binary64.numBits) :
    (ofBits bits.toNat).place? = unpackedPlace? (unpack Format.binary64 bits) := by
  unfold ofBits unpack
  dsimp only
  rw [ofBitVec_unpackSign, toNat_unpackExponent]
  by_cases special : unpackExponent bits = -1#_
  · have field := (unpackExponent_eq_neg_one_iff bits).mp special
    rw [if_pos special, if_pos field]
    by_cases empty : unpackMantissa bits = 0#_
    · have fraction := (unpackMantissa_eq_zero_iff bits).mp empty
      rw [if_pos empty, if_pos fraction]
      by_cases negative : Nat.pow 2 63 ≤ bits.toNat
      · rw [decide_eq_true negative, if_pos negative]
        rfl
      · rw [decide_eq_false negative, if_neg negative]
        rfl
    · have fraction := mt (unpackMantissa_eq_zero_iff bits).mpr empty
      rw [if_neg empty, if_neg fraction]
      rfl
  · have field := mt (unpackExponent_eq_neg_one_iff bits).mpr special
    rw [if_neg special, if_neg field]
    by_cases low : unpackExponent bits = 0#_
    · have zero := (unpackExponent_eq_zero_iff bits).mp low
      rw [if_pos low, if_pos zero]
      by_cases empty : unpackMantissa bits = 0#_
      · have fraction := (unpackMantissa_eq_zero_iff bits).mp empty
        have unsigned : signed (decide (Nat.pow 2 63 ≤ bits.toNat)) 0 = 0 := by simp [signed]
        rw [dif_pos empty, fraction, place?, unsigned, Int.cast_zero, zero_mul]
        rfl
      · rw [dif_neg empty, zero]
        rw [place?, signed_eq_apply]
        rfl
    · have zero := mt (unpackExponent_eq_zero_iff bits).mpr low
      rw [if_neg low, if_neg zero]
      have exponent : minExponent + ((bits.toNat / Nat.pow 2 52 % Nat.pow 2 11 : Nat) - 1 : Int) =
          (bits.toNat / Nat.pow 2 52 % Nat.pow 2 11 : Nat) -
            (Format.binary64.exponentBias + (52 : Nat) : Int) := by
        simp only [minExponent, Format.exponentBias]
        omega
      rw [place?, signed_eq_apply, exponent, ← toNat_leading_unpackMantissa bits]
      rfl

theorem place?_ofFloat (x : Float) : (ofFloat x).place? = unpackedPlace? x.toModel.unpack :=
  place?_ofBits x.toModel.toBits.toBitVec

theorem compares_compareScaled (a e b f : Int) :
    (compareScaled a e b f).Compares (a * 2 ^ e : ℚ) (b * 2 ^ f : ℚ) := by
  -- Both numbers are whole multiples of the smaller power of two.
  have scale (m i j : Int) :
      (m * 2 ^ i : ℚ) = ((m * Int.pow 2 (i - j).toNat : Int) : ℚ) * 2 ^ min i j := by
    have exponents : i = ((i - j).toNat : Int) + min i j := by omega
    have whole : ((Int.pow 2 (i - j).toNat : Int) : ℚ) = 2 ^ (i - j).toNat :=
      Int.cast_pow 2 (i - j).toNat
    calc
      (m * 2 ^ i : ℚ) = m * (2 ^ (i - j).toNat * 2 ^ min i j) := by
        conv_lhs => rw [exponents, zpow_add₀ (by norm_num), zpow_natCast]
      _ = ((m * Int.pow 2 (i - j).toNat : Int) : ℚ) * 2 ^ min i j := by
        rw [← mul_assoc, Int.cast_mul, whole]
  have increasing : StrictMono fun n : Int => (n : ℚ) * 2 ^ min e f := by
    intro m n less
    exact mul_lt_mul_of_pos_right (Int.cast_lt.mpr less) (zpow_pos (by norm_num) _)
  rw [scale a e f, scale b f e, min_comm f e]
  exact increasing.compares.mpr ((compare_iff _ _).mp rfl)

theorem exists_compares {a b : Binary64} {x y : WithBotTop ℚ} (left : a.place? = some x)
    (right : b.place? = some y) : ∃ order, a.compare? b = some order ∧ order.Compares x y := by
  have above (q : ℚ) : ⊥ < WithBotTop.coe q := bot_lt_iff_ne_bot.mpr (WithBotTop.coe_ne_bot q)
  have below (q : ℚ) : WithBotTop.coe q < ⊤ := lt_top_iff_ne_top.mpr (WithBotTop.coe_ne_top q)
  cases a with
  | nan => contradiction
  | infinite s =>
      cases b with
      | nan => contradiction
      | infinite t =>
          cases s <;> cases t <;> cases left <;> cases right
          · exact ⟨.eq, rfl, rfl⟩
          · exact ⟨.gt, rfl, bot_lt_top⟩
          · exact ⟨.lt, rfl, bot_lt_top⟩
          · exact ⟨.eq, rfl, rfl⟩
      | finite t n f =>
          cases s <;> cases left <;> cases right
          · exact ⟨.gt, rfl, below _⟩
          · exact ⟨.lt, rfl, above _⟩
  | finite s m e =>
      cases b with
      | nan => contradiction
      | infinite t =>
          cases t <;> cases left <;> cases right
          · exact ⟨.lt, rfl, below _⟩
          · exact ⟨.gt, rfl, above _⟩
      | finite t n f =>
          cases left
          cases right
          exact ⟨_, rfl, WithBotTop.coe_strictMono.compares.mpr (compares_compareScaled _ _ _ _)⟩

theorem compare?_eq_none {a b : Binary64} (none : a.place? = none ∨ b.place? = none) :
    a.compare? b = .none := by
  have isNan {c : Binary64} (none : c.place? = .none) : c = nan := by
    cases c with
    | nan => rfl
    | infinite s => cases s <;> contradiction
    | finite s m e => contradiction
  rcases none with left | right
  · rw [isNan left]
    rfl
  · rw [isNan right]
    cases a <;> rfl

end Binary64

theorem Number.place?_exact (n : Number) : n.exact.place? = n.place? := by
  cases n with
  | float x => exact Binary64.place?_ofFloat x
  | int n =>
      have size : Binary64.signed (decide (n < 0)) n.natAbs = n := by
        simp only [Binary64.signed, decide_eq_true_eq]
        split <;> omega
      simp [exact, Binary64.ofInt, Binary64.place?, place?, size]

namespace Operator

def Relates (x y : WithBotTop ℚ) : Operator → Prop
  | lt => x < y
  | le => x ≤ y
  | gt => x > y
  | ge => x ≥ y
  | eq => x = y
  | ne => x ≠ y
  | _ => False

def Holds (op : Operator) (a b : Number) : Prop :=
  op.apply (.number a) (.number b) = .ok (.bool true)

variable {op : Operator} {a b : Number}

theorem exists_apply_comparison (comparison : op.kind? = some .boolean) (a b : Number) :
    ∃ truth, op.apply (.number a) (.number b) = .ok (.bool truth) := by
  cases op with
  | le | ge | ne | eq | lt | gt => exact ⟨_, rfl⟩
  | assign | add | sub | mul | div | mod | pow => contradiction

theorem holds_iff (comparison : op.kind? = some .boolean) {x y : WithBotTop ℚ}
    (left : a.place? = some x) (right : b.place? = some y) : op.Holds a b ↔ op.Relates x y := by
  rw [← Number.place?_exact] at left right
  obtain ⟨order, compared, compares⟩ := Binary64.exists_compares left right
  have same : a.compare? b = some order := compared
  cases op with
  | assign | add | sub | mul | div | mod | pow => contradiction
  | lt =>
      refine Iff.trans ?_ compares.eq_lt
      cases order <;> simp [Holds, apply, Number.ordered, same]
  | le =>
      refine Iff.trans ?_ compares.ne_gt
      cases order <;> simp [Holds, apply, Number.ordered, same]
  | gt =>
      refine Iff.trans ?_ compares.eq_gt
      cases order <;> simp [Holds, apply, Number.ordered, same]
  | ge =>
      refine Iff.trans ?_ compares.ne_lt
      cases order <;> simp [Holds, apply, Number.ordered, same]
  | eq =>
      refine Iff.trans ?_ compares.eq_eq
      cases order <;> simp [Holds, apply, Value.equals, same]
  | ne =>
      refine Iff.trans ?_ (not_congr compares.eq_eq)
      cases order <;> simp [Holds, apply, Value.equals, same]

theorem apply_of_isNaN (comparison : op.kind? = some .boolean)
    (nan : a.isNaN = true ∨ b.isNaN = true) :
    op.apply (.number a) (.number b) = .ok (.bool (op = .ne)) := by
  rw [← Number.place?_eq_none_iff, ← Number.place?_eq_none_iff, ← Number.place?_exact,
    ← Number.place?_exact] at nan
  have none : a.compare? b = none := Binary64.compare?_eq_none nan
  cases op with
  | assign | add | sub | mul | div | mod | pow => contradiction
  | le | ge | lt | gt => simp [apply, Number.ordered, none]
  | eq | ne => simp [apply, Value.equals, none]

end Operator

structure Number.Ordered (a b c : Number) : Prop where
  one : Operator.Holds .lt a b ∧ ¬ Operator.Holds .eq a b ∧ ¬ Operator.Holds .lt b a ∨
    ¬ Operator.Holds .lt a b ∧ Operator.Holds .eq a b ∧ ¬ Operator.Holds .lt b a ∨
    ¬ Operator.Holds .lt a b ∧ ¬ Operator.Holds .eq a b ∧ Operator.Holds .lt b a
  lt_trans : Operator.Holds .lt a b → Operator.Holds .lt b c → Operator.Holds .lt a c
  eq_trans : Operator.Holds .eq a b → Operator.Holds .eq b c → Operator.Holds .eq a c
  le_iff : Operator.Holds .le a b ↔ Operator.Holds .lt a b ∨ Operator.Holds .eq a b
  gt_iff : Operator.Holds .gt a b ↔ Operator.Holds .lt b a
  ge_iff : Operator.Holds .ge a b ↔ Operator.Holds .le b a
  ne_iff : Operator.Holds .ne a b ↔ ¬ Operator.Holds .eq a b

theorem Number.ordered_of_place? {a b c : Number} {x y z : WithBotTop ℚ} (first : a.place? = some x)
    (second : b.place? = some y) (third : c.place? = some z) : Ordered a b c := by
  have ab {op : Operator} (comparison : op.kind? = some .boolean) :=
    Operator.holds_iff comparison first second
  have ba {op : Operator} (comparison : op.kind? = some .boolean) :=
    Operator.holds_iff comparison second first
  have bc {op : Operator} (comparison : op.kind? = some .boolean) :=
    Operator.holds_iff comparison second third
  have ac {op : Operator} (comparison : op.kind? = some .boolean) :=
    Operator.holds_iff comparison first third
  constructor
  · rw [ab rfl, ab rfl, ba rfl]
    rcases lt_trichotomy x y with less | same | more
    · exact .inl ⟨less, less.ne, less.asymm⟩
    · exact .inr (.inl ⟨same.not_lt, same, same.symm.not_lt⟩)
    · exact .inr (.inr ⟨more.asymm, more.ne', more⟩)
  · rw [ab rfl, bc rfl, ac rfl]
    exact lt_trans
  · rw [ab rfl, bc rfl, ac rfl]
    exact Eq.trans
  · rw [ab rfl, ab rfl, ab rfl]
    exact le_iff_lt_or_eq
  · rw [ab rfl, ba rfl]
    exact Iff.rfl
  · rw [ab rfl, ba rfl]
    exact Iff.rfl
  · rw [ab rfl, ab rfl]
    exact Iff.rfl

theorem Number.exists_place? {n : Number} (number : n.isNaN = false) : ∃ x, n.place? = some x := by
  apply Option.ne_none_iff_exists'.mp
  intro none
  rw [place?_eq_none_iff.mp none] at number
  contradiction

/-- The six comparisons never fail on numbers. Of numbers that are not NaN they are one total order, that
of the places of these numbers, and a NaN differs from all numbers and has no other relation to them. -/
theorem Operator.comparison_order :
    (∀ op : Operator, op.kind? = some .boolean → ∀ a b : Number,
      ∃ truth, op.apply (.number a) (.number b) = .ok (.bool truth)) ∧
    (∀ a b c : Number, a.isNaN = false → b.isNaN = false → c.isNaN = false →
      Number.Ordered a b c) ∧
    (∀ a b : Number, a.isNaN = false → b.isNaN = false →
      ∃ x y, a.place? = some x ∧ b.place? = some y ∧
        ∀ op : Operator, op.kind? = some .boolean → (op.Holds a b ↔ op.Relates x y)) ∧
    ∀ a b : Number, a.isNaN = true ∨ b.isNaN = true → ∀ op : Operator, op.kind? = some .boolean →
      op.apply (.number a) (.number b) = .ok (.bool (op = .ne)) := by
  refine ⟨fun op => exists_apply_comparison, ?_, ?_, fun a b nan op comparison =>
    apply_of_isNaN comparison nan⟩
  · intro a b c first second third
    obtain ⟨x, left⟩ := Number.exists_place? first
    obtain ⟨y, middle⟩ := Number.exists_place? second
    obtain ⟨z, right⟩ := Number.exists_place? third
    exact Number.ordered_of_place? left middle right
  · intro a b first second
    obtain ⟨x, left⟩ := Number.exists_place? first
    obtain ⟨y, right⟩ := Number.exists_place? second
    exact ⟨x, y, left, right, fun op comparison => holds_iff comparison left right⟩

/-- The double next to `2 ^ 53 + 1` is below it, an integer that no double reaches is below infinity, and
a NaN differs from itself. -/
theorem Operator.comparison_order_large :
    Holds .lt (.float (Float.ofBits 0x4340000000000000)) (.int (2 ^ 53 + 1)) ∧
    Holds .lt (.int (2 ^ 53 + 1)) (.int (2 ^ 1024)) ∧
    Holds .lt (.float (Float.ofBits 0x4340000000000000)) (.int (2 ^ 1024)) ∧
    Number.Ordered (.float (Float.ofBits 0x4340000000000000)) (.int (2 ^ 1024))
      (.float Number.infinityFloat) ∧
    apply .ne (.number (.float Number.nanFloat)) (.number (.float Number.nanFloat)) =
      .ok (.bool true) := by
  obtain ⟨_, ordered, _, unordered⟩ := comparison_order
  have finite : (Number.float (Float.ofBits 0x4340000000000000)).isNaN = false := by decide +kernel
  have infinite : (Number.float Number.infinityFloat).isNaN = false := by decide +kernel
  have nan : (Number.float Number.nanFloat).isNaN = true := by decide +kernel
  have first : Holds .lt (.float (Float.ofBits 0x4340000000000000)) (.int (2 ^ 53 + 1)) := by
    unfold Holds
    decide +kernel
  have second : Holds .lt (.int (2 ^ 53 + 1)) (.int (2 ^ 1024)) := by
    unfold Holds
    decide +kernel
  refine ⟨first, second, (ordered _ _ _ finite rfl rfl).lt_trans first second,
    ordered _ _ _ finite rfl infinite, ?_⟩
  exact unordered _ _ (.inl nan) .ne rfl

end LineCalc
