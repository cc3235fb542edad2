import LineCalc.Proofs.Json.Decode
import LineCalc.Proofs.Value.Order

/-! The texts of values tell them apart.

A text is read as a numeral in one way only. No number is rounded to two doubles, so the numeral of a double,
whose number is rounded to it, is the numeral of no other. An integer has neither a point nor an exponent, and
truth values, infinities and NaN are written as words. -/

namespace LineCalc

/-- The parts of a numeral are found in its text, so the text has no other parts. -/
theorem Numeral.eq_of_text_eq {n m : Numeral} (same : n.text = m.text) : n = m := by
  have text (k : Numeral) : k.text = (if k.negative then ['-'] else []) ++
      (k.whole ++ (k.fraction ++ (k.exponent ++ []))) := by
    simp only [Numeral.text, List.append_assoc, List.append_nil]
  have behind (k : Numeral) := Json.stops_exponent k (Text.stops_nil _)
  rw [text n, text m] at same
  have signs := congrArg (Json.optional (· = '-')) same
  rw [Json.optional_minus, Json.optional_minus, Prod.mk.injEq] at signs
  have wholes := congrArg Json.whole? signs.2
  rw [Json.whole?_append n (Json.stops_fraction n (behind n)),
    Json.whole?_append m (Json.stops_fraction m (behind m)), Option.some.injEq, Prod.mk.injEq] at wholes
  have fractions := congrArg Json.fraction? wholes.2
  rw [Json.fraction?_append n (behind n), Json.fraction?_append m (behind m), Option.some.injEq,
    Prod.mk.injEq, List.append_nil, List.append_nil] at fractions
  have negative : n.negative = m.negative := by
    have sign := signs.1
    revert sign
    cases n.negative <;> cases m.negative <;> simp
  have places : n.places = m.places := by
    have point := fractions.1
    unfold Numeral.fraction at point
    split at point <;> split at point <;> simp_all
  cases n
  cases m
  simp_all

namespace Decimal

open Binary64 (Canonical)

variable {number : ℚ} {m m' : Nat} {q q' : Int}

theorem RoundsTo.not_lt (rounds : RoundsTo number m q) (rounds' : RoundsTo number m' q) : ¬ m < m' := by
  intro less
  have unit : (0 : ℚ) < 2 ^ q / 4 := by positivity
  have narrow := (gapBelow_bounds m' q).2
  have meets : (4 * m' - gapBelow m' q : Int) ≤ 4 * m + 2 := by
    exact_mod_cast le_of_mul_le_mul_right (rounds'.low.trans rounds.high) unit
  -- The upper midpoint of the one is the lower midpoint of the other, and both mantissas are even.
  have shared : (4 * m' - gapBelow m' q : Int) = 4 * m + 2 := by omega
  have high : number = ((4 * m + 2 : Int) : ℚ) * (2 ^ q / 4) :=
    le_antisymm rounds.high (shared ▸ rounds'.low)
  have even := rounds.even_of_high high
  have even' := rounds'.even_of_low (shared ▸ high.symm)
  omega

theorem RoundsTo.not_exponent_lt (rounds : RoundsTo number m q) (rounds' : RoundsTo number m' q')
    (canonical : Canonical m q) (canonical' : Canonical m' q') : ¬ q < q' := by
  intro less
  have unit : (0 : ℚ) < 2 ^ q / 4 := by positivity
  obtain ⟨k, rfl⟩ : ∃ k : Nat, q' = q + (k + 1 : Nat) := ⟨(q' - q - 1).toNat, by omega⟩
  have power : (2 : ℚ) ^ (q + (k + 1 : Nat)) / 4 = ((2 ^ (k + 1) : Int) : ℚ) * (2 ^ q / 4) := by
    rw [zpow_add₀ (by norm_num), zpow_natCast]
    push_cast
    ring
  have low := rounds'.low
  rw [power, ← mul_assoc, ← Int.cast_mul] at low
  have meets : (4 * m' - gapBelow m' (q + (k + 1 : Nat)) : Int) * 2 ^ (k + 1) ≤ 4 * m + 2 := by
    exact_mod_cast le_of_mul_le_mul_right (low.trans rounds.high) unit
  have bounded := canonical.bounded
  have least := canonical.least
  have normal : 2 ^ 52 ≤ m' := by
    by_contra short
    have := canonical'.normal (by omega)
    omega
  -- The least mantissa above has its lower midpoint only a quarter of a bit below it.
  have above : (2 ^ 54 - 1 : Int) ≤ 4 * m' - gapBelow m' (q + (k + 1 : Nat)) := by
    unfold gapBelow
    split
    case isTrue => omega
    case isFalse other =>
        have larger : m' ≠ Nat.pow 2 52 := by
          intro edge
          exact other ⟨edge, by omega⟩
        simp only [Nat.pow_eq] at larger
        omega
  have double : (2 : Int) ≤ 2 ^ (k + 1) := by
    rw [pow_succ]
    have : (0 : Int) < 2 ^ k := by positivity
    omega
  have reach : ((2 ^ 54 - 1) * 2 : Int) ≤ (4 * m' - gapBelow m' (q + (k + 1 : Nat))) * 2 ^ (k + 1) :=
    mul_le_mul above double (by norm_num) (le_trans (by norm_num) above)
  have shared : (4 * m' - gapBelow m' (q + (k + 1 : Nat)) : Int) * 2 ^ (k + 1) = 4 * m + 2 := by omega
  rw [shared] at low
  have even := rounds.even_of_high (le_antisymm rounds.high low)
  omega

theorem RoundsTo.unique (rounds : RoundsTo number m q) (rounds' : RoundsTo number m' q')
    (canonical : Canonical m q) (canonical' : Canonical m' q') : m = m' ∧ q = q' := by
  have exponent : q = q' := by
    have := rounds.not_exponent_lt rounds' canonical canonical'
    have := rounds'.not_exponent_lt rounds canonical' canonical
    omega
  subst exponent
  have := rounds.not_lt rounds'
  have := rounds'.not_lt rounds
  exact ⟨by omega, rfl⟩

end Decimal

namespace Binary64

open Float.Model (Format)
open Float.Model.UnpackedFloat (packedNaN)

variable {x y : Float}

theorem toBits_of_nan (reading : ofFloat x = .nan) :
    x.toModel.toBits.toBitVec = packedNaN Format.binary64 := by
  unfold ofFloat ofBits at reading
  dsimp only at reading
  split at reading
  case isTrue special =>
      split at reading
      case isTrue => cases reading
      case isFalse fraction =>
          exact x.toModel.valid.eq_packedNaN ((unpackExponent_eq_neg_one_iff _).mpr special)
            (mt (unpackMantissa_eq_zero_iff _).mp fraction)
  case isFalse => split at reading <;> cases reading

theorem fields_of_infinite {bits : Nat} {negative : Bool} (infinite : ofBits bits = .infinite negative) :
    negative = decide (2 ^ 63 ≤ bits) ∧ bits / 2 ^ 52 % 2 ^ 11 = 2047 ∧ bits % 2 ^ 52 = 0 := by
  unfold ofBits at infinite
  simp only [Nat.pow_eq] at infinite
  split at infinite
  case isTrue special =>
      split at infinite
      case isTrue fraction =>
          cases infinite
          exact ⟨rfl, special, fraction⟩
      case isFalse => cases infinite
  case isFalse => split at infinite <;> cases infinite

theorem eq_of_ofFloat_eq (same : ofFloat x = ofFloat y) : x = y := by
  have bound := x.toBits.toNat_lt
  have bound' := y.toBits.toNat_lt
  have told (bits : x.toBits = y.toBits) : x = y := by
    obtain ⟨⟨a, _⟩⟩ := x
    obtain ⟨⟨b, _⟩⟩ := y
    cases (bits : a = b)
    rfl
  cases reading : ofFloat x with
  | nan =>
      have bits := (toBits_of_nan reading).trans (toBits_of_nan (same ▸ reading)).symm
      exact told (UInt64.toBitVec_inj.mp bits)
  | infinite negative =>
      obtain ⟨sign, field, fraction⟩ := fields_of_infinite reading
      obtain ⟨sign', field', fraction'⟩ := fields_of_infinite (same ▸ reading)
      rw [sign', decide_eq_decide] at sign
      exact told (UInt64.toNat_inj.mp (by omega))
  | finite negative mantissa exponent =>
      obtain ⟨sign, _, fields⟩ := fields_of_finite reading
      obtain ⟨sign', _, fields'⟩ := fields_of_finite (same ▸ reading)
      rw [sign', decide_eq_decide] at sign
      exact told (UInt64.toNat_inj.mp (by omega))

end Binary64

theorem Numeral.mem_text {n : Numeral} {c : Char} (member : c ∈ n.text) :
    c.isDigit = true ∨ c ∈ ['-', '.', 'e', '+'] := by
  obtain ⟨_, _, _, digits, _⟩ := Json.exists_whole n
  simp only [text, List.mem_append] at member
  rcases member with ((sign | whole) | fraction) | exponent
  · split at sign <;> simp_all
  · exact .inl (digits c whole)
  · unfold Numeral.fraction at fraction
    split at fraction
    · simp at fraction
    · rcases List.mem_cons.mp fraction with rfl | place
      · simp
      · exact .inl (n.placed c place)
  · rcases n.raised with none | ⟨sign, row, raised, signs, _, all⟩
    · simp [none] at exponent
    · rw [raised] at exponent
      rcases List.mem_cons.mp exponent with rfl | exponent
      · simp
      rcases List.mem_cons.mp exponent with rfl | place
      · rcases signs with rfl | rfl <;> simp
      · exact .inl (all c place)

theorem Numeral.ofInt_injective {n m : Int} (same : ofInt n = ofInt m) : n = m := by
  have sign : (n < 0) ↔ m < 0 := decide_eq_decide.mp (congrArg Numeral.negative same)
  have size := congrArg (fun k : Numeral => Nat.ofDigitChars 10 k.whole 0) same
  simp only [ofInt, Nat.ofDigitChars_ten_toDigits] at size
  omega

namespace Value

inductive Spelled : Value → String → Prop
  | true : Spelled (bool true) "true"
  | false : Spelled (bool false) "false"
  | nan {x : Float} (reading : Binary64.ofFloat x = .nan) : Spelled (number (.float x)) "nan"
  | infinity {x : Float} (reading : Binary64.ofFloat x = .infinite false) : Spelled (number (.float x)) "inf"
  | minusInfinity {x : Float} (reading : Binary64.ofFloat x = .infinite true) :
      Spelled (number (.float x)) "-inf"

inductive Written : Value → List Char → Prop
  | word {value : Value} {word : String} (spelled : value.Spelled word) : Written value word.toList
  | int (n : Int) : Written (number (.int n)) (Numeral.ofInt n).text
  | float {x : Float} {mantissa : Nat} {exponent : Int} (n : Numeral)
      (finite : Binary64.ofFloat x = .finite n.negative mantissa exponent) (point : n.isInteger = false)
      (rounds : Decimal.RoundsTo n.size mantissa exponent) : Written (number (.float x)) n.text

variable {value other : Value} {text word : String}

theorem written_of_text (shown : value.text = .ok text) : value.Written text.toList := by
  cases value with
  | bool b =>
      cases b with
      | true =>
          cases shown
          exact .word .true
      | false =>
          cases shown
          exact .word .false
  | number n =>
      cases n with
      | int n =>
          rw [Value.text, Number.text, integerText] at shown
          split at shown
          · cases shown
          · cases shown
            rw [← Numeral.text_ofInt]
            exact .int n
      | float x =>
          cases shown
          cases reading : Binary64.ofFloat x with
          | nan => exact .word (.nan reading)
          | infinite negative =>
              cases negative with
              | true => exact .word (.minusInfinity reading)
              | false => exact .word (.infinity reading)
          | finite negative mantissa exponent =>
              obtain ⟨n, point, written, sign, rounds⟩ := Binary64.exists_numeral_text reading
              subst sign
              rw [← reading, ← written]
              exact .float n reading point rounds

theorem Spelled.ne_numeral (spelled : value.Spelled word) (n : Numeral) : word.toList ≠ n.text := by
  have letter : ∃ c ∈ word.toList, c ∈ ['a', 'i', 'r'] := by
    cases spelled <;> simp
  obtain ⟨c, member, letter⟩ := letter
  intro same
  rw [same] at member
  have mark := Numeral.mem_text member
  simp only [List.mem_cons, List.not_mem_nil, or_false] at letter
  rcases letter with rfl | rfl | rfl <;> exact absurd mark (by decide)

theorem Spelled.unique {word' : String} (spelled : value.Spelled word) (spelled' : other.Spelled word')
    (same : word = word') : value = other := by
  have float {x y : Float} {reading : Binary64} (first : Binary64.ofFloat x = reading)
      (second : Binary64.ofFloat y = reading) : number (.float x) = number (.float y) := by
    rw [Binary64.eq_of_ofFloat_eq (first.trans second.symm)]
  cases spelled with
  | true =>
      cases spelled' with
      | true => rfl
      | _ => exact absurd same (by decide)
  | false =>
      cases spelled' with
      | false => rfl
      | _ => exact absurd same (by decide)
  | nan reading =>
      cases spelled' with
      | nan reading' => exact float reading reading'
      | _ => exact absurd same (by decide)
  | infinity reading =>
      cases spelled' with
      | infinity reading' => exact float reading reading'
      | _ => exact absurd same (by decide)
  | minusInfinity reading =>
      cases spelled' with
      | minusInfinity reading' => exact float reading reading'
      | _ => exact absurd same (by decide)

theorem Written.unique {cs ds : List Char} (written : value.Written cs) (written' : other.Written ds)
    (same : cs = ds) : value = other := by
  cases written with
  | word spelled =>
      cases written' with
      | word spelled' => exact spelled.unique spelled' (String.toList_inj.mp same)
      | int n => exact absurd same (spelled.ne_numeral _)
      | float n => exact absurd same (spelled.ne_numeral _)
  | int n =>
      cases written' with
      | word spelled' => exact absurd same.symm (spelled'.ne_numeral _)
      | int m => rw [Numeral.ofInt_injective (Numeral.eq_of_text_eq same)]
      | float m _ point => cases (congrArg Numeral.isInteger (Numeral.eq_of_text_eq same)).trans point
  | float n finite point rounds =>
      cases written' with
      | word spelled' => exact absurd same.symm (spelled'.ne_numeral _)
      | int m => cases (congrArg Numeral.isInteger (Numeral.eq_of_text_eq same)).symm.trans point
      | float m finite' _ rounds' =>
          cases Numeral.eq_of_text_eq same
          obtain ⟨rfl, rfl⟩ := rounds.unique rounds' (Binary64.canonical_of_finite finite)
            (Binary64.canonical_of_finite finite')
          rw [Binary64.eq_of_ofFloat_eq (finite.trans finite'.symm)]

theorem eq_of_text_eq (shown : value.text = .ok text) (shown' : other.text = .ok text) : value = other :=
  (written_of_text shown).unique (written_of_text shown') rfl

end Value

end LineCalc
