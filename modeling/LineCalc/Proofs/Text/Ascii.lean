import Mathlib.Data.Nat.Digits.Defs
import LineCalc.Proofs.Number.Numeral
import LineCalc.Proofs.Token.Pattern

namespace LineCalc.Text

def toAscii (c : Char) : Char := ((digitValue? c).map Nat.digitChar).getD c

def withoutZeros (digits : List Char) : List Char :=
  if digits.dropWhile (· = '0') = [] then ['0'] else digits.dropWhile (· = '0')

def inAscii (s : String) : String := String.ofList (s.toList.map toAscii)

section Characters

variable {c : Char} {value : Nat}

theorem isAsciiDigit_digitChar (below : value < 10) : (Nat.digitChar value).isDigit = true := by
  rw [Nat.isDigit_digitChar, decide_eq_true below]

theorem digitValue?_digitChar (below : value < 10) : digitValue? (Nat.digitChar value) = some value := by
  rw [digitValue?_of_isAsciiDigit (isAsciiDigit_digitChar below),
    Nat.toNat_digitChar_sub_48_of_lt_ten below]

theorem digitChar_of_isAsciiDigit (digit : c.isDigit = true) : Nat.digitChar (c.toNat - 48) = c := by
  have bounds := bounds_of_isAsciiDigit digit
  apply Char.toNat_inj.mp
  rw [Nat.toNat_digitChar_of_lt_ten (by omega)]
  omega

theorem toAscii_of_digitValue? (digit : digitValue? c = some value) : toAscii c = Nat.digitChar value := by
  rw [toAscii, digit]
  rfl

theorem toAscii_of_not_isDigit (other : isDigit c = false) : toAscii c = c := by
  have none : digitValue? c = none := by simpa [isDigit] using other
  rw [toAscii, none]
  rfl

theorem toAscii_of_isAsciiDigit (digit : c.isDigit = true) : toAscii c = c := by
  rw [toAscii_of_digitValue? (digitValue?_of_isAsciiDigit digit), digitChar_of_isAsciiDigit digit]

theorem toAscii_of_lt (ascii : c.toNat < 128) : toAscii c = c := by
  cases digit : isDigit c with
  | false => exact toAscii_of_not_isDigit digit
  | true =>
      obtain ⟨first, block, low, high⟩ := exists_block_of_isDigit digit
      have zeros : ∀ first ∈ digitZeros, first < 128 → first = 48 := by decide
      have lowest := zeros first block (by omega)
      apply toAscii_of_isAsciiDigit
      simp only [Char.isDigit, Bool.and_eq_true, decide_eq_true_eq, ge_iff_le, UInt32.le_iff_toNat_le]
      exact ⟨show 48 ≤ c.toNat by omega, show c.toNat ≤ 57 by omega⟩

theorem digitValue?_toAscii (c : Char) : digitValue? (toAscii c) = digitValue? c := by
  cases digit : digitValue? c with
  | none => rw [toAscii, digit, Option.map_none, Option.getD_none, digit]
  | some value => rw [toAscii_of_digitValue? digit, digitValue?_digitChar (digitValue?_lt digit)]

theorem isDigit_toAscii (c : Char) : isDigit (toAscii c) = isDigit c := by
  rw [isDigit, isDigit, digitValue?_toAscii]

theorem toAscii_eq_iff {d : Char} (plain : isDigit d = false) : toAscii c = d ↔ c = d := by
  constructor
  · rintro rfl
    rw [isDigit_toAscii] at plain
    exact (toAscii_of_not_isDigit plain).symm
  · rintro rfl
    exact toAscii_of_not_isDigit plain

end Characters

variable {digits : List Char}

theorem numberOfDigits_map_toAscii (cs : List Char) : numberOfDigits (cs.map toAscii) = numberOfDigits cs := by
  simp only [numberOfDigits, List.foldl_map, digitValue?_toAscii]

theorem numberOfDigits_eq_ofDigits (cs : List Char) :
    numberOfDigits cs = Nat.ofDigits 10 (cs.reverse.map fun c => (digitValue? c).getD 0) := by
  induction cs using List.reverseRecOn with
  | nil => rfl
  | append_singleton cs c ih =>
      rw [numberOfDigits_concat, ih, List.reverse_concat, List.map_cons, Nat.ofDigits_cons]
      omega

theorem numberOfDigits_eq_ofDigitChars (ascii : ∀ c ∈ digits, c.isDigit = true) :
    numberOfDigits digits = Nat.ofDigitChars 10 digits 0 := by
  rw [numberOfDigits, Nat.ofDigitChars_eq_foldl]
  apply List.foldl_ext
  intro number c member
  rw [digitValue?_of_isAsciiDigit (ascii c member)]
  rfl

theorem numberOfDigits_toDigits (n : Nat) : numberOfDigits (Nat.toDigits 10 n) = n := by
  rw [numberOfDigits_eq_ofDigitChars fun c member => isDigit_of_mem_toDigits member,
    Nat.ofDigitChars_ten_toDigits]

theorem numberOfDigits_lt {limit : Nat} (few : digits.length ≤ limit) :
    numberOfDigits digits < Nat.pow 10 limit := by
  have own : numberOfDigits digits < 10 ^ digits.length := by
    clear few
    induction digits using List.reverseRecOn with
    | nil => simp
    | append_singleton digits c ih =>
        have digit : (digitValue? c).getD 0 < 10 := by
          cases found : digitValue? c with
          | none => simp
          | some value => exact digitValue?_lt found
        rw [numberOfDigits_concat, List.length_append, List.length_singleton, pow_succ]
        omega
  exact Nat.lt_of_lt_of_le own (Nat.pow_le_pow_right (by decide) few)

theorem withoutZeros_concat (digits : List Char) (last : Char) :
    withoutZeros (digits ++ [last]) =
      if digits.dropWhile (· = '0') = [] then [last] else digits.dropWhile (· = '0') ++ [last] := by
  unfold withoutZeros
  rw [List.dropWhile_append]
  by_cases zeros : digits.dropWhile (· = '0') = []
  · rw [if_pos (List.isEmpty_iff.mpr zeros), if_pos zeros]
    by_cases zero : last = '0' <;> simp [zero]
  · rw [if_neg (mt List.isEmpty_iff.mp zeros), if_neg zeros, if_neg (by simp)]

theorem withoutZeros_eq_zero_iff (digits : List Char) :
    withoutZeros digits = ['0'] ↔ digits.dropWhile (· = '0') = [] := by
  unfold withoutZeros
  by_cases zeros : digits.dropWhile (· = '0') = []
  · simp [zeros]
  · rw [if_neg zeros, iff_false_right zeros]
    intro same
    have first := stops_dropWhile (· = '0') digits
    rw [same] at first
    exact absurd (stops_cons.mp first) (by decide)

theorem toDigits_numberOfDigits (all : ∀ c ∈ digits, isDigit c = true) :
    Nat.toDigits 10 (numberOfDigits digits) = withoutZeros (digits.map toAscii) := by
  induction digits using List.reverseRecOn with
  | nil => rfl
  | append_singleton digits c ih =>
      rw [List.forall_mem_append, List.forall_mem_singleton] at all
      have before := ih all.1
      obtain ⟨value, digit⟩ := Option.isSome_iff_exists.mp all.2
      have below := digitValue?_lt digit
      rw [numberOfDigits_concat, digit, Option.getD_some, List.map_append, List.map_singleton,
        toAscii_of_digitValue? digit, withoutZeros_concat]
      by_cases zero : numberOfDigits digits = 0
      · have zeros : (digits.map toAscii).dropWhile (· = '0') = [] := by
          rw [← withoutZeros_eq_zero_iff, ← before, zero]
          rfl
        rw [if_pos zeros, zero, Nat.mul_zero, Nat.zero_add, Nat.toDigits_of_lt_base below]
      · have positive : 0 < numberOfDigits digits := Nat.pos_of_ne_zero zero
        have zeros : (digits.map toAscii).dropWhile (· = '0') ≠ [] := by
          intro none
          obtain ⟨first, rest, split, nonzero, _⟩ := significant_toDigits positive
          rw [before, (withoutZeros_eq_zero_iff _).mpr none] at split
          exact nonzero (List.cons.inj split).1.symm
        rw [if_neg zeros, ← Nat.toDigits_append_toDigits (by decide) positive below, before,
          Nat.toDigits_of_lt_base below, withoutZeros, if_neg zeros]

section Texts

variable {s t : String} {cs ds : List Char}

@[simp] theorem toList_inAscii (s : String) : (inAscii s).toList = s.toList.map toAscii :=
  String.toList_ofList

@[simp] theorem length_inAscii (s : String) : (inAscii s).length = s.length := by
  rw [← String.length_toList, toList_inAscii, List.length_map, String.length_toList]

@[simp] theorem inAscii_append (s t : String) : inAscii (s ++ t) = inAscii s ++ inAscii t := by
  rw [inAscii, String.toList_append, List.map_append, String.ofList_append]
  rfl

theorem map_toAscii_eq_iff (plain : ds.any isDigit = false) : cs.map toAscii = ds ↔ cs = ds := by
  induction cs generalizing ds with
  | nil => rfl
  | cons c cs ih =>
      cases ds with
      | nil => simp
      | cons d ds =>
          rw [List.any_cons, Bool.or_eq_false_iff] at plain
          rw [List.map_cons, List.cons.injEq, List.cons.injEq, toAscii_eq_iff plain.1, ih plain.2]

theorem mem_map_toAscii_iff {d : Char} (plain : isDigit d = false) : d ∈ cs.map toAscii ↔ d ∈ cs := by
  simp [toAscii_eq_iff plain]

theorem inAscii_eq_iff (plain : t.toList.any isDigit = false) : inAscii s = t ↔ s = t := by
  rw [← String.toList_inj, toList_inAscii, map_toAscii_eq_iff plain, String.toList_inj]

theorem inAscii_eq_self (kept : ∀ c ∈ s.toList, toAscii c = c) : inAscii s = s := by
  rw [inAscii, List.map_congr_left kept, List.map_id', String.ofList_toList]

theorem inAscii_of_all_lt (ascii : (s.toList.all fun c => c.toNat < 128) = true) : inAscii s = s := by
  apply inAscii_eq_self
  intro c member
  exact toAscii_of_lt (of_decide_eq_true (List.all_eq_true.mp ascii c member))

theorem inAscii_quoted {lead : String} (ascii : (lead.toList.all fun c => c.toNat < 128) = true)
    (s : String) : inAscii (lead ++ s ++ "`") = lead ++ inAscii s ++ "`" := by
  have mark : inAscii "`" = "`" := inAscii_of_all_lt (by decide)
  rw [inAscii_append, inAscii_append, inAscii_of_all_lt ascii, mark]

theorem IsInteger.map_toAscii (integer : IsInteger cs) : IsInteger (cs.map toAscii) := by
  refine ⟨by simpa using integer.1, ?_⟩
  intro c member
  obtain ⟨d, within, rfl⟩ := List.mem_map.mp member
  rw [isDigit_toAscii]
  exact integer.2 d within

theorem IsDecimal.map_toAscii (decimal : IsDecimal cs) : IsDecimal (cs.map toAscii) := by
  obtain ⟨whole, places, integer, fraction, rfl⟩ := decimal
  refine ⟨_, _, integer.map_toAscii, fraction.map_toAscii, ?_⟩
  rw [List.map_append, List.map_cons, toAscii_of_not_isDigit (by decide)]

theorem IsGap.map_toAscii (gap : IsGap cs) : cs.map toAscii = cs := by
  rw [map_toAscii_eq_iff]
  apply List.any_eq_false.mpr
  intro c member digit
  rw [isDigit_of_isBlank (gap c member)] at digit
  contradiction

theorem toAscii_of_mem_identifier (identifier : IsIdentifier cs) {c : Char} (member : c ∈ cs) :
    toAscii c = c := by
  obtain ⟨first, rest, rfl, letter, others⟩ := identifier
  rcases List.mem_cons.mp member with rfl | member
  · exact toAscii_of_not_isDigit (isDigit_of_isAlpha letter)
  · rcases (Bool.or_eq_true _ _).mp (others c member) with alpha | digit
    · exact toAscii_of_not_isDigit (isDigit_of_isAlpha alpha)
    · exact toAscii_of_isAsciiDigit digit

end Texts

end LineCalc.Text
