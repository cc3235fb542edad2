import Mathlib.Algebra.Order.Field.Rat
import Mathlib.Algebra.Order.Field.Power
import Mathlib.Data.List.TakeWhile
import Mathlib.Tactic.Linarith
import Mathlib.Tactic.Positivity
import Mathlib.Tactic.NormNum
import Mathlib.Tactic.Ring
import LineCalc.Value

/-! The texts of numbers.

The text of an integer or of a finite double is a numeral: a sign, digits that have no zero in front unless
this is all of them, and for a double a point with digits behind it or an exponent. Seventeen digits are
enough to read a double back, so there always are digits to write, and the numeral of a double stands for a
number that is rounded to this double. -/

namespace LineCalc

def Significant (digits : List Char) : Prop :=
  ∃ first rest, digits = first :: rest ∧ first ≠ '0' ∧ ∀ c ∈ digits, c.isDigit = true

/-- A number as it is written: the digits before the point, those behind it, if there is a point, and an
exponent with its mark, if there is one. -/
structure Numeral where
  negative : Bool
  whole : List Char
  places : List Char
  exponent : List Char
  leads : whole = ['0'] ∨ Significant whole
  placed : ∀ c ∈ places, c.isDigit = true
  raised : exponent = [] ∨ ∃ sign digits, exponent = 'e' :: sign :: digits ∧
    (sign = '+' ∨ sign = '-') ∧ digits ≠ [] ∧ ∀ c ∈ digits, c.isDigit = true

def Numeral.fraction (n : Numeral) : List Char := if n.places = [] then [] else '.' :: n.places

def Numeral.text (n : Numeral) : List Char :=
  (if n.negative then ['-'] else []) ++ n.whole ++ n.fraction ++ n.exponent

def Numeral.isInteger (n : Numeral) : Bool := n.places.isEmpty && n.exponent.isEmpty

def Numeral.shift (exponent : List Char) : Int :=
  match exponent with
  | _ :: sign :: digits =>
    let count : Int := Nat.ofDigitChars 10 digits 0
    if sign = '-' then -count else count
  | _ => 0

def Decimal.scaled (digits : List Char) (point : Int) : ℚ :=
  Nat.ofDigitChars 10 digits 0 * 10 ^ (point - digits.length)

def Numeral.size (n : Numeral) : ℚ :=
  Decimal.scaled (n.whole ++ n.places) (n.whole.length + shift n.exponent)

theorem isDigit_of_mem_toDigits {n : Nat} {c : Char} (member : c ∈ Nat.toDigits 10 n) :
    c.isDigit = true :=
  Nat.isDigit_of_mem_toDigits (by decide) (by decide) member

theorem significant_toDigits {n : Nat} (positive : 0 < n) : Significant (Nat.toDigits 10 n) := by
  have leads : ∃ first rest, Nat.toDigits 10 n = first :: rest ∧ first ≠ '0' := by
    induction n using Nat.strong_induction_on with
    | _ n ih =>
        rw [Nat.toDigits_eq_if (by decide)]
        by_cases short : n < 10
        · rw [if_pos short]
          exact ⟨_, [], rfl, by simp; omega⟩
        · rw [if_neg short]
          obtain ⟨first, rest, split, nonzero⟩ := ih (n / 10) (by omega) (by omega)
          rw [split]
          exact ⟨first, rest ++ [Nat.digitChar (n % 10)], rfl, nonzero⟩
  obtain ⟨first, rest, split, nonzero⟩ := leads
  exact ⟨first, rest, split, nonzero, fun c member => isDigit_of_mem_toDigits member⟩

def Numeral.ofInt (n : Int) : Numeral where
  negative := n < 0
  whole := Nat.toDigits 10 n.natAbs
  places := []
  exponent := []
  leads := by
    by_cases zero : n.natAbs = 0
    · exact .inl (by rw [zero]; rfl)
    · exact .inr (significant_toDigits (by omega))
  placed := by simp
  raised := .inl rfl

theorem Numeral.text_ofInt (n : Int) : (ofInt n).text = (toString n).toList := by
  cases n with
  | ofNat n =>
      have written : toString (Int.ofNat n) = n.repr := rfl
      rw [written, Nat.toList_repr]
      simp [text, fraction, ofInt]
  | negSucc n =>
      have written : toString (Int.negSucc n) = "-" ++ (n + 1).repr := rfl
      rw [written, String.toList_append, Nat.toList_repr]
      simp [text, fraction, ofInt, Int.negSucc_lt_zero]

namespace Decimal

/-- A quarter of the last bit of a double, in the unit in which it and a step of the grid are whole. -/
def quarter (q e : Int) : Nat := Nat.pow 2 (q - 2).toNat * Nat.pow 10 (-e).toNat

def step (q e : Int) : Nat := Nat.pow 10 e.toNat * Nat.pow 2 (2 - q).toNat

def readsBack (m : Nat) (q e : Int) (d : Nat) : Bool :=
  let low := (4 * m - gapBelow m q) * quarter q e
  let high := (4 * m + 2) * quarter q e
  if m % 2 = 0 then low ≤ d * step q e && d * step q e ≤ high
  else low < d * step q e && d * step q e < high

theorem readsBack_of_onGrid? {m : Nat} {q e : Int} {d : Nat} (found : onGrid? m q e = some d) :
    readsBack m q e d = true := by
  unfold onGrid? at found
  dsimp only at found
  split at found
  case h_1 => cases found
  case h_2 below _ =>
      cases found
      exact below
  case h_3 above =>
      cases found
      exact above
  case h_4 below above =>
      split at found
      case h_1 =>
          cases found
          exact below
      case h_2 =>
          cases found
          exact above
      case h_3 =>
          cases found
          split
          · exact below
          · exact above

theorem not_readsBack_of_onGrid? {m : Nat} {q e : Int} (missing : onGrid? m q e = none) :
    readsBack m q e (4 * m * quarter q e / step q e) = false ∧
      readsBack m q e (4 * m * quarter q e / step q e + 1) = false := by
  unfold onGrid? at missing
  dsimp only at missing
  split at missing
  case h_1 below above => exact ⟨below, above⟩
  case h_4 => split at missing <;> cases missing
  all_goals cases missing

theorem quarter_pos (q e : Int) : 0 < quarter q e :=
  Nat.mul_pos (Nat.pow_pos (by decide)) (Nat.pow_pos (by decide))

theorem step_pos (q e : Int) : 0 < step q e :=
  Nat.mul_pos (Nat.pow_pos (by decide)) (Nat.pow_pos (by decide))

theorem gapBelow_bounds (m : Nat) (q : Int) : 0 < gapBelow m q ∧ gapBelow m q ≤ 2 := by
  unfold gapBelow
  split <;> simp

theorem readsBack_of_between {m : Nat} {q e : Int} {d : Nat}
    (low : (4 * m - gapBelow m q) * quarter q e < d * step q e)
    (high : d * step q e < (4 * m + 2) * quarter q e) : readsBack m q e d = true := by
  unfold readsBack
  split
  · simpa using ⟨low.le, high.le⟩
  · simpa using ⟨low, high⟩

/-- If a step is shorter than the stretch of numbers that read back, one of the two grid points around the
number lies in that stretch. -/
theorem exists_onGrid? {m : Nat} {q e : Int} (positive : 0 < m)
    (fine : step q e < (gapBelow m q + 2) * quarter q e) : ∃ d, onGrid? m q e = some d := by
  rw [← Option.isSome_iff_exists, ← Option.ne_none_iff_isSome]
  intro missing
  obtain ⟨below, above⟩ := not_readsBack_of_onGrid? missing
  have unit := quarter_pos q e
  have ⟨gap, narrow⟩ := gapBelow_bounds m q
  have gapUnit : 0 < gapBelow m q * quarter q e := Nat.mul_pos gap unit
  have lower := Nat.div_mul_le_self (4 * m * quarter q e) (step q e)
  have upper := Nat.lt_div_mul_add (step_pos q e) (a := 4 * m * quarter q e)
  have low : (4 * m - gapBelow m q) * quarter q e + gapBelow m q * quarter q e = 4 * m * quarter q e := by
    rw [← Nat.add_mul, Nat.sub_add_cancel (by omega)]
  -- The lower point does not read back, so it is not above the lower midpoint.
  have short : 4 * m * quarter q e / step q e * step q e ≤ (4 * m - gapBelow m q) * quarter q e := by
    by_contra beyond
    have reads := readsBack_of_between (Nat.not_le.mp beyond) (by rw [Nat.add_mul]; omega)
    rw [below] at reads
    cases reads
  -- The next point then lies above the number and within a step of that midpoint.
  have reads : readsBack m q e (4 * m * quarter q e / step q e + 1) = true := by
    rw [Nat.add_mul] at fine
    apply readsBack_of_between
    · rw [Nat.add_mul, Nat.one_mul]
      omega
    · rw [Nat.add_mul, Nat.add_mul, Nat.one_mul]
      omega
  rw [above] at reads
  cases reads

theorem pos_of_onGrid? {m : Nat} {q e : Int} {d : Nat} (positive : 0 < m)
    (found : onGrid? m q e = some d) : 0 < d := by
  have reads := readsBack_of_onGrid? found
  have ⟨gap, narrow⟩ := gapBelow_bounds m q
  have low : 0 < (4 * m - gapBelow m q) * quarter q e := Nat.mul_pos (by omega) (quarter_pos q e)
  rw [Nat.pos_iff_ne_zero]
  intro zero
  subst zero
  simp only [readsBack, Nat.zero_mul] at reads
  generalize (4 * m - gapBelow m q) * quarter q e = least at *
  split at reads
  case isTrue =>
      simp at reads
      omega
  case isFalse => simp at reads

theorem zpow_toNat (b : ℚ) (nonzero : b ≠ 0) (e : Int) : b ^ e.toNat = b ^ e * b ^ (-e).toNat := by
  rw [← zpow_natCast, ← zpow_natCast, ← zpow_add₀ nonzero]
  congr 1
  omega

theorem cast_step (q e : Int) : (step q e : ℚ) = 10 ^ e * (10 ^ (-e).toNat * 2 ^ (2 - q).toNat) := by
  simp only [step, Nat.pow_eq]
  push_cast
  rw [zpow_toNat 10 (by norm_num) e]
  ring

theorem cast_quarter (q e : Int) :
    (quarter q e : ℚ) = 2 ^ q / 4 * (10 ^ (-e).toNat * 2 ^ (2 - q).toNat) := by
  simp only [quarter, Nat.pow_eq]
  push_cast
  rw [zpow_toNat 2 (by norm_num) (q - 2), zpow_sub₀ (by norm_num), Int.neg_sub]
  ring

theorem pow_length_toDigits_le {n : Nat} (positive : 0 < n) :
    10 ^ ((Nat.toDigits 10 n).length - 1) ≤ n := by
  have nonempty : (Nat.toDigits 10 n).length ≠ 0 := by simp
  by_cases single : (Nat.toDigits 10 n).length = 1
  · rw [single]
    exact positive
  · have longer : ¬ (Nat.toDigits 10 n).length ≤ (Nat.toDigits 10 n).length - 1 := by omega
    rw [Nat.length_toDigits_le_iff (by decide) (by omega)] at longer
    omega

theorem pow_point_le {m : Nat} {q : Int} (positive : 0 < m) (least : -1074 ≤ q) :
    (10 : ℚ) ^ (point m q - 1) ≤ m * (2 : ℚ) ^ q := by
  let size := m * 2 ^ q.toNat * 10 ^ leadingPlaces
  let unit := 2 ^ (-q).toNat
  have small : unit ≤ size := by
    calc
      unit ≤ 2 ^ (3 * leadingPlaces) :=
        Nat.pow_le_pow_right (by decide) (by unfold leadingPlaces; omega)
      _ = (2 ^ 3) ^ leadingPlaces := Nat.pow_mul ..
      _ ≤ 10 ^ leadingPlaces := Nat.pow_le_pow_left (by decide) _
      _ ≤ size := Nat.le_mul_of_pos_left _ (by positivity)
  have scaled := pow_length_toDigits_le (Nat.div_pos small (by positivity))
  have whole : (10 : ℚ) ^ ((Nat.toDigits 10 (size / unit)).length - 1) * unit ≤ size := by
    exact_mod_cast (Nat.le_div_iff_mul_le (by positivity)).1 scaled
  have exponent : (10 : ℚ) ^ ((Nat.toDigits 10 (size / unit)).length - 1) =
      10 ^ (point m q - 1) * 10 ^ leadingPlaces := by
    have nonempty : (Nat.toDigits 10 (size / unit)).length ≠ 0 := by simp
    have points : point m q = (Nat.toDigits 10 (size / unit)).length - leadingPlaces := by
      simp only [point, Nat.pow_eq, size, unit]
    rw [← zpow_natCast, ← zpow_natCast (10 : ℚ) leadingPlaces, ← zpow_add₀ (by norm_num)]
    congr 1
    omega
  have sizes : (size : ℚ) = m * 2 ^ q * unit * 10 ^ leadingPlaces := by
    simp only [size, unit]
    push_cast
    rw [zpow_toNat 2 (by norm_num) q]
    ring
  rw [exponent, sizes] at whole
  have unitPositive : (0 : ℚ) < unit * 10 ^ leadingPlaces := by positivity
  refine le_of_mul_le_mul_right ?_ unitPositive
  linarith

/-- With seventeen digits a step of the grid is shorter than the stretch of numbers that read back. -/
theorem step_lt {m : Nat} {q : Int} (positive : 0 < m) (bounded : m < 2 ^ 53) (least : -1074 ≤ q) :
    step q (point m q - 17) < (gapBelow m q + 2) * quarter q (point m q - 17) := by
  generalize exponent : point m q - 17 = e
  have leads : (10 : ℚ) ^ e * 10 ^ 16 ≤ m * 2 ^ q := by
    have shifted : (10 : ℚ) ^ e * 10 ^ 16 = 10 ^ (point m q - 1) := by
      rw [← zpow_natCast, ← zpow_add₀ (by norm_num)]
      congr 1
      omega
    rw [shifted]
    exact pow_point_le positive least
  -- Sixteen digits are not enough: `2 ^ 53` is less than `10 ^ 16`, but not less than `10 ^ 15`.
  have stretch : (m : ℚ) * 4 < (gapBelow m q + 2) * 10 ^ 16 := by
    have whole : m * 4 < (gapBelow m q + 2) * 10 ^ 16 := by
      unfold gapBelow
      split
      case isTrue edge =>
          rw [edge.1]
          decide
      case isFalse => omega
    exact_mod_cast whole
  have power : (0 : ℚ) < 2 ^ q := by positivity
  have finer : (10 : ℚ) ^ e < (gapBelow m q + 2) * (2 ^ q / 4) := by
    have scaled := mul_lt_mul_of_pos_right stretch power
    linarith
  have unit : (0 : ℚ) < 10 ^ (-e).toNat * 2 ^ (2 - q).toNat := by positivity
  have ratio : (step q e : ℚ) < (gapBelow m q + 2) * quarter q e := by
    rw [cast_step, cast_quarter, ← mul_assoc (_ + _)]
    exact mul_lt_mul_of_pos_right finer unit
  exact_mod_cast ratio

theorem trimZeros_cons {first : Char} (nonzero : first ≠ '0') (rest : List Char) :
    trimZeros (first :: rest) = first :: trimZeros rest := by
  have kept : [first].dropWhile (· = '0') = [first] := List.dropWhile_cons_of_neg (by simpa using nonzero)
  rw [trimZeros, List.reverse_cons, List.dropWhile_append, kept]
  split
  case isTrue empty =>
      rw [trimZeros, List.isEmpty_iff.mp empty]
      rfl
  case isFalse => rw [List.reverse_append, trimZeros, List.reverse_singleton, List.singleton_append]

theorem significant_trimZeros {digits : List Char} (significant : Significant digits) :
    Significant (trimZeros digits) := by
  obtain ⟨first, rest, split, nonzero, digit⟩ := significant
  refine ⟨first, trimZeros rest, by rw [split, trimZeros_cons nonzero], nonzero, fun c member => digit c ?_⟩
  rw [trimZeros, List.mem_reverse] at member
  exact List.mem_reverse.1 ((List.dropWhile_sublist _).subset member)

theorem scaled_append_zeros (digits : List Char) (count : Nat) (point : Int) :
    scaled (digits ++ List.replicate count '0') point = scaled digits point := by
  have power : (10 : ℚ) ^ (point - digits.length) =
      10 ^ count * 10 ^ (point - (digits ++ List.replicate count '0').length) := by
    rw [← zpow_natCast, ← zpow_add₀ (by norm_num), List.length_append, List.length_replicate]
    congr 1
    push_cast
    ring
  rw [scaled, scaled, power, Nat.ofDigitChars_append, Nat.ofDigitChars_replicate_zero]
  push_cast
  ring

theorem scaled_zeros_append (digits : List Char) (count : Nat) (point : Int) :
    scaled (List.replicate count '0' ++ digits) (point + count) = scaled digits point := by
  have places : point + count - (List.replicate count '0' ++ digits).length = point - digits.length := by
    rw [List.length_append, List.length_replicate]
    push_cast
    ring
  rw [scaled, scaled, places, Nat.ofDigitChars_append, Nat.ofDigitChars_replicate_zero, Nat.mul_zero]

theorem exists_trimZeros (digits : List Char) :
    ∃ count, digits = trimZeros digits ++ List.replicate count '0' := by
  refine ⟨(digits.reverse.takeWhile (· = '0')).length, ?_⟩
  have zeros : digits.reverse.takeWhile (· = '0') =
      List.replicate (digits.reverse.takeWhile (· = '0')).length '0' := by
    rw [List.eq_replicate_iff]
    refine ⟨rfl, fun c member => ?_⟩
    simpa using List.mem_takeWhile_imp member
  have split := List.takeWhile_append_dropWhile (p := (· = '0')) (l := digits.reverse)
  have whole := congrArg List.reverse split
  rw [List.reverse_append, List.reverse_reverse, zeros, List.reverse_replicate] at whole
  exact whole.symm

/-- A number lies between the midpoints around `m · 2 ^ q`, and on one of them only if `m` is even. -/
structure RoundsTo (number : ℚ) (m : Nat) (q : Int) : Prop where
  low : ((4 * m - gapBelow m q : Int) : ℚ) * (2 ^ q / 4) ≤ number
  high : number ≤ ((4 * m + 2 : Int) : ℚ) * (2 ^ q / 4)
  even_of_low : ((4 * m - gapBelow m q : Int) : ℚ) * (2 ^ q / 4) = number → m % 2 = 0
  even_of_high : number = ((4 * m + 2 : Int) : ℚ) * (2 ^ q / 4) → m % 2 = 0

theorem roundsTo_of_readsBack {m : Nat} {q e : Int} {d : Nat} (positive : 0 < m)
    (reads : readsBack m q e d = true) : RoundsTo (d * 10 ^ e) m q := by
  have gap := (gapBelow_bounds m q).2
  have unit : (0 : ℚ) < 10 ^ (-e).toNat * 2 ^ (2 - q).toNat := by positivity
  have number : ((d * step q e : Nat) : ℚ) = d * 10 ^ e * (10 ^ (-e).toNat * 2 ^ (2 - q).toNat) := by
    push_cast
    rw [cast_step]
    ring
  have midpoint (n : Nat) (k : Int) (same : (n : Int) = k) : ((n * quarter q e : Nat) : ℚ) =
      (k : ℚ) * (2 ^ q / 4) * (10 ^ (-e).toNat * 2 ^ (2 - q).toNat) := by
    rw [← same]
    push_cast
    rw [cast_quarter]
    ring
  have lower := midpoint (4 * m - gapBelow m q) (4 * m - gapBelow m q) (by omega)
  have upper := midpoint (4 * m + 2) (4 * m + 2) (by omega)
  unfold readsBack at reads
  by_cases even : m % 2 = 0
  · simp only [if_pos even, Bool.and_eq_true, decide_eq_true_eq] at reads
    rw [← Nat.cast_le (α := ℚ), ← Nat.cast_le (α := ℚ), lower, upper, number] at reads
    exact ⟨le_of_mul_le_mul_right reads.1 unit, le_of_mul_le_mul_right reads.2 unit, fun _ => even,
      fun _ => even⟩
  · simp only [if_neg even, Bool.and_eq_true, decide_eq_true_eq] at reads
    rw [← Nat.cast_lt (α := ℚ), ← Nat.cast_lt (α := ℚ), lower, upper, number] at reads
    have low := lt_of_mul_lt_mul_right reads.1 unit.le
    have high := lt_of_mul_lt_mul_right reads.2 unit.le
    exact ⟨low.le, high.le, fun same => absurd same low.ne, fun same => absurd same high.ne⟩

theorem roundsTo_zero (q : Int) : RoundsTo (scaled ['0', '0'] 1) 0 q := by
  have number : scaled ['0', '0'] 1 = 0 := by
    rw [scaled]
    simp [Nat.ofDigitChars_cons]
  have power : (0 : ℚ) < 2 ^ q := by positivity
  have gap : gapBelow 0 q = 2 := rfl
  rw [number]
  refine ⟨?_, ?_, fun _ => rfl, fun _ => rfl⟩
  · rw [gap]
    push_cast
    linarith
  · push_cast
    linarith

theorem exists_shortest {m : Nat} {q : Int} (positive : 0 < m) (bounded : m < 2 ^ 53)
    (least : -1074 ≤ q) :
    ∃ d e, onGrid? m q e = some d ∧
      shortest m q = (trimZeros (Nat.toDigits 10 d), (Nat.toDigits 10 d).length + e) := by
  unfold shortest
  dsimp only
  split
  case h_1 d e found =>
      obtain ⟨n, _, tried⟩ := List.exists_of_findSome?_eq_some found
      obtain ⟨_, onGrid, same⟩ := Option.map_eq_some_iff.1 tried
      cases same
      exact ⟨d, _, onGrid, rfl⟩
  case h_2 missing =>
      obtain ⟨d, last⟩ := exists_onGrid? positive (step_lt positive bounded least)
      have absent := List.findSome?_eq_none_iff.1 missing 16 (by decide)
      have exponent : point m q - ((16 + 1 : Nat) : Int) = point m q - 17 := rfl
      rw [exponent, last] at absent
      cases absent

theorem roundsTo_shortest {m : Nat} {q : Int} (positive : 0 < m) (bounded : m < 2 ^ 53)
    (least : -1074 ≤ q) : RoundsTo (scaled (shortest m q).1 (shortest m q).2) m q := by
  obtain ⟨d, e, found, written⟩ := exists_shortest positive bounded least
  obtain ⟨count, trimmed⟩ := exists_trimZeros (Nat.toDigits 10 d)
  have number : scaled (shortest m q).1 (shortest m q).2 = d * 10 ^ e := by
    rw [written, ← scaled_append_zeros _ count, ← trimmed, scaled, Nat.ofDigitChars_ten_toDigits]
    congr 2
    ring
  rw [number]
  exact roundsTo_of_readsBack positive (readsBack_of_onGrid? found)

theorem significant_shortest {m : Nat} {q : Int} (positive : 0 < m) (bounded : m < 2 ^ 53)
    (least : -1074 ≤ q) : Significant (shortest m q).1 := by
  obtain ⟨d, e, found, written⟩ := exists_shortest positive bounded least
  rw [written]
  exact significant_trimZeros (significant_toDigits (pos_of_onGrid? positive found))

end Decimal

namespace FloatLayout

variable {digits : List Char}

theorem isDigit_zeros (count : Nat) : ∀ c ∈ List.replicate count '0', c.isDigit = true := by
  intro c member
  rw [List.eq_of_mem_replicate member]
  rfl

theorem exists_numeral_positional (significant : Significant digits) (point : Int) :
    ∃ n : Numeral, n.negative = false ∧ n.isInteger = false ∧ n.text = positional digits point ∧
      n.size = Decimal.scaled digits point := by
  obtain ⟨first, rest, split, nonzero, digit⟩ := significant
  by_cases small : point ≤ 0
  · let zeros := List.replicate (-point).toNat '0'
    let n : Numeral := {
      negative := false
      whole := ['0']
      places := zeros ++ digits
      exponent := []
      leads := .inl rfl
      placed := List.forall_mem_append.mpr ⟨isDigit_zeros _, digit⟩
      raised := .inl rfl }
    have size : n.size = Decimal.scaled (List.replicate ((-point).toNat + 1) '0' ++ digits) 1 := rfl
    refine ⟨n, rfl, ?_, ?_, ?_⟩
    · simp [n, Numeral.isInteger, split]
    · simp [n, zeros, Numeral.text, Numeral.fraction, positional, small, split]
    · rw [size, ← Decimal.scaled_zeros_append digits ((-point).toNat + 1) point]
      congr 1
      omega
  · by_cases short : digits.length ≤ point.toNat
    · let zeros := List.replicate (point.toNat - digits.length) '0'
      let n : Numeral := {
        negative := false
        whole := digits ++ zeros
        places := ['0']
        exponent := []
        leads := .inr ⟨first, rest ++ zeros, by rw [split]; rfl, nonzero,
          List.forall_mem_append.mpr ⟨digit, isDigit_zeros _⟩⟩
        placed := by simp
        raised := .inl rfl }
      have row : n.whole ++ n.places =
          digits ++ List.replicate (point.toNat - digits.length + 1) '0' := by
        rw [List.replicate_succ', ← List.append_assoc]
      refine ⟨n, rfl, rfl, ?_, ?_⟩
      · simp [n, zeros, Numeral.text, Numeral.fraction, positional, small, short]
      · rw [Numeral.size, row, Decimal.scaled_append_zeros]
        congr 1
        simp only [n, zeros, Numeral.shift, List.length_append, List.length_replicate]
        omega
    · have before : digits.take point.toNat = first :: rest.take (point.toNat - 1) := by
        rw [split, List.take_cons (by omega)]
      have behind : digits.drop point.toNat ≠ [] := by
        rw [Ne, List.drop_eq_nil_iff]
        exact short
      let n : Numeral := {
        negative := false
        whole := digits.take point.toNat
        places := digits.drop point.toNat
        exponent := []
        leads := .inr ⟨first, _, before, nonzero, fun c member => digit c (List.mem_of_mem_take member)⟩
        placed := fun c member => digit c (List.mem_of_mem_drop member)
        raised := .inl rfl }
      refine ⟨n, rfl, ?_, ?_, ?_⟩
      · simpa [n, Numeral.isInteger] using behind
      · simp only [n, Numeral.text, Numeral.fraction, positional, small, short, behind, if_false, List.append_nil]
        simp
      · rw [Numeral.size]
        simp only [n, Numeral.shift, List.take_append_drop, List.length_take]
        congr 1
        omega

theorem shift_exponentMark (layout : FloatLayout) (exponent : Int) :
    Numeral.shift (layout.exponentMark exponent) = exponent := by
  have count (zeros : Nat) :
      Nat.ofDigitChars 10 (List.replicate zeros '0' ++ Nat.toDigits 10 exponent.natAbs) 0 =
        exponent.natAbs := by
    rw [Nat.ofDigitChars_append, Nat.ofDigitChars_replicate_zero, Nat.mul_zero,
      Nat.ofDigitChars_ten_toDigits]
  simp only [exponentMark, Numeral.shift, List.cons_append, count]
  by_cases negative : exponent < 0
  · rw [if_pos negative, if_pos rfl]
    omega
  · rw [if_neg negative, if_neg (by decide)]
    omega

theorem exists_numeral_scientific (layout : FloatLayout) (significant : Significant digits) (point : Int) :
    ∃ n : Numeral, n.negative = false ∧ n.isInteger = false ∧ n.text = layout.scientific digits point ∧
      n.size = Decimal.scaled digits point := by
  obtain ⟨first, rest, split, nonzero, digit⟩ := significant
  subst split
  simp only [List.forall_mem_cons] at digit
  have raised : ∃ sign row, layout.exponentMark (point - 1) = 'e' :: sign :: row ∧
      (sign = '+' ∨ sign = '-') ∧ row ≠ [] ∧ ∀ c ∈ row, c.isDigit = true := by
    refine ⟨_, _, rfl, ?_, by simp, ?_⟩
    · split <;> simp
    · exact List.forall_mem_append.mpr ⟨isDigit_zeros _, fun c member => isDigit_of_mem_toDigits member⟩
  let n : Numeral := {
    negative := false
    whole := [first]
    places := rest
    exponent := layout.exponentMark (point - 1)
    leads := .inr ⟨first, [], rfl, nonzero, by simpa using digit.1⟩
    placed := digit.2
    raised := .inr raised }
  refine ⟨n, rfl, ?_, ?_, ?_⟩
  · simp [n, Numeral.isInteger, exponentMark]
  · cases rest <;> simp [n, Numeral.text, Numeral.fraction, scientific]
  · rw [Numeral.size, shift_exponentMark]
    congr 1
    simp [n]

end FloatLayout

namespace Binary64

/-- The mantissas and exponents of doubles. A mantissa of fewer bits has the least exponent. -/
structure Canonical (mantissa : Nat) (exponent : Int) : Prop where
  bounded : mantissa < 2 ^ 53
  least : -1074 ≤ exponent
  normal : mantissa < 2 ^ 52 → exponent = -1074

theorem fields_of_finite {bits : Nat} {negative : Bool} {mantissa : Nat} {exponent : Int}
    (finite : ofBits bits = .finite negative mantissa exponent) :
    negative = decide (2 ^ 63 ≤ bits) ∧ bits / 2 ^ 52 % 2 ^ 11 ≠ 2047 ∧
      (bits / 2 ^ 52 % 2 ^ 11 = 0 ∧ mantissa = bits % 2 ^ 52 ∧ exponent = -1074 ∨
        0 < bits / 2 ^ 52 % 2 ^ 11 ∧ mantissa = bits % 2 ^ 52 + 2 ^ 52 ∧
          exponent = -1075 + (bits / 2 ^ 52 % 2 ^ 11 : Nat)) := by
  unfold ofBits at finite
  simp only [Nat.pow_eq, minExponent] at finite
  split at finite
  case isTrue => split at finite <;> cases finite
  case isFalse number =>
      split at finite
      case isTrue zero =>
          cases finite
          exact ⟨rfl, number, .inl ⟨zero, rfl, rfl⟩⟩
      case isFalse positive =>
          cases finite
          exact ⟨rfl, number, .inr ⟨by omega, rfl, by omega⟩⟩

theorem canonical_of_finite {x : Float} {negative : Bool} {mantissa : Nat} {exponent : Int}
    (finite : ofFloat x = .finite negative mantissa exponent) : Canonical mantissa exponent := by
  have fraction : x.toBits.toNat % 2 ^ 52 < 2 ^ 52 := Nat.mod_lt _ (by decide)
  obtain ⟨_, _, ⟨_, bits, least⟩ | ⟨_, bits, above⟩⟩ := fields_of_finite finite
  · exact ⟨by omega, by omega, fun _ => least⟩
  · exact ⟨by omega, by omega, by omega⟩

/-- The text of a finite double is a numeral with a point or an exponent, of a number that is rounded to
this double. -/
theorem exists_numeral_text {x : Float} {negative : Bool} {mantissa : Nat} {exponent : Int}
    (finite : ofFloat x = .finite negative mantissa exponent) :
    ∃ n : Numeral, n.isInteger = false ∧ n.text = (ofFloat x).text.toList ∧ n.negative = negative ∧
      Decimal.RoundsTo n.size mantissa exponent := by
  have unsigned : ∃ n : Numeral, n.negative = false ∧ n.isInteger = false ∧ n.text =
      (if mantissa = 0 then ['0', '.', '0'] else FloatLayout.standard.digits mantissa exponent) ∧
        Decimal.RoundsTo n.size mantissa exponent := by
    by_cases zero : mantissa = 0
    · subst zero
      rw [if_pos rfl]
      refine ⟨⟨false, ['0'], ['0'], [], .inl rfl, by simp, .inl rfl⟩, rfl, rfl, rfl, ?_⟩
      exact Decimal.roundsTo_zero exponent
    · rw [if_neg zero]
      obtain ⟨bounded, least, _⟩ := canonical_of_finite finite
      have significant := Decimal.significant_shortest (by omega) bounded least
      have rounds := Decimal.roundsTo_shortest (by omega) bounded least
      unfold FloatLayout.digits
      dsimp only
      split
      · obtain ⟨n, sign, point, text, size⟩ := FloatLayout.exists_numeral_positional significant _
        exact ⟨n, sign, point, text, size ▸ rounds⟩
      · obtain ⟨n, sign, point, text, size⟩ := FloatLayout.exists_numeral_scientific _ significant _
        exact ⟨n, sign, point, text, size ▸ rounds⟩
  obtain ⟨n, positive, point, text, rounds⟩ := unsigned
  refine ⟨{ n with negative }, point, ?_, rfl, rounds⟩
  rw [finite, Binary64.text, String.toList_ofList, ← text]
  cases negative <;> simp [Numeral.text, Numeral.fraction, positive]

end Binary64

end LineCalc
