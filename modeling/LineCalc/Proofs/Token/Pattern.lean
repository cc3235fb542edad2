import Mathlib.Data.List.TakeWhile
import LineCalc.Token.Scan

namespace LineCalc

namespace Text

def IsInteger (cs : List Char) : Prop := cs ≠ [] ∧ ∀ c ∈ cs, isDigit c = true

def IsDecimal (cs : List Char) : Prop :=
  ∃ whole places, IsInteger whole ∧ IsInteger places ∧ cs = whole ++ '.' :: places

def IsIdentifier (cs : List Char) : Prop :=
  ∃ c rest, cs = c :: rest ∧ c.isAlpha = true ∧ ∀ d ∈ rest, d.isAlphanum = true

def IsGap (cs : List Char) : Prop := ∀ c ∈ cs, isBlank c = true

theorem IsInteger.point_not_mem {cs : List Char} (integer : IsInteger cs) : '.' ∉ cs := by
  intro point
  exact absurd (integer.2 '.' point) (by decide)

theorem exists_block_of_isDigit {c : Char} (digit : isDigit c = true) :
    ∃ first ∈ digitZeros, first ≤ c.toNat ∧ c.toNat < first + 10 := by
  rcases Option.isSome_iff_exists.mp digit with ⟨value, h⟩
  rcases Option.map_eq_some_iff.mp h with ⟨first, found, _⟩
  have bounds := List.find?_some found
  simp only [Bool.and_eq_true, decide_eq_true_eq] at bounds
  exact ⟨first, List.mem_of_find?_eq_some found, bounds.1, bounds.2⟩

theorem isDigit_of_isBlank {c : Char} (blank : isBlank c = true) : isDigit c = false := by
  rcases List.any_eq_true.mp blank with ⟨range, member, bounds⟩
  simp only [Bool.and_eq_true, decide_eq_true_eq] at bounds
  have apart : ∀ range ∈ blankRanges, ∀ first ∈ digitZeros,
      range.2 < first ∨ first + 10 ≤ range.1 := by decide
  apply Bool.eq_false_iff.mpr
  intro digit
  rcases exists_block_of_isDigit digit with ⟨first, block, low, high⟩
  have := apart range member first block
  omega

theorem bounds_of_isAlpha {c : Char} (alpha : c.isAlpha = true) :
    65 ≤ c.toNat ∧ c.toNat ≤ 90 ∨ 97 ≤ c.toNat ∧ c.toNat ≤ 122 := by
  rcases (Bool.or_eq_true c.isUpper c.isLower).mp alpha with upper | lower
  · have bounds : 'A'.val ≤ c.val ∧ c.val ≤ 'Z'.val := of_decide_eq_true upper
    exact .inl ⟨UInt32.le_iff_toNat_le.mp bounds.1, UInt32.le_iff_toNat_le.mp bounds.2⟩
  · have bounds := (Bool.and_eq_true _ _).mp lower
    exact .inr ⟨UInt32.le_iff_toNat_le.mp (of_decide_eq_true bounds.1),
      UInt32.le_iff_toNat_le.mp (of_decide_eq_true bounds.2)⟩

theorem isDigit_of_isAlpha {c : Char} (alpha : c.isAlpha = true) : isDigit c = false := by
  have bounds := bounds_of_isAlpha alpha
  have apart : ∀ first ∈ digitZeros, first + 10 ≤ 65 ∨ 122 < first := by decide
  apply Bool.eq_false_iff.mpr
  intro digit
  rcases exists_block_of_isDigit digit with ⟨first, block, low, high⟩
  have := apart first block
  omega

theorem isAlpha_of_isBlank {c : Char} (blank : isBlank c = true) : c.isAlpha = false := by
  rcases List.any_eq_true.mp blank with ⟨range, member, bounds⟩
  simp only [Bool.and_eq_true, decide_eq_true_eq] at bounds
  have apart : ∀ range ∈ blankRanges, range.2 < 65 ∨ 122 < range.1 := by decide
  apply Bool.eq_false_iff.mpr
  intro alpha
  have letter := bounds_of_isAlpha alpha
  have := apart range member
  omega

theorem bounds_of_isAsciiDigit {c : Char} (digit : c.isDigit = true) :
    48 ≤ c.toNat ∧ c.toNat ≤ 57 := by
  have bounds := (Bool.and_eq_true _ _).mp digit
  exact ⟨UInt32.le_iff_toNat_le.mp (of_decide_eq_true bounds.1),
    UInt32.le_iff_toNat_le.mp (of_decide_eq_true bounds.2)⟩

theorem digitValue?_of_isAsciiDigit {c : Char} (digit : c.isDigit = true) :
    digitValue? c = some (c.toNat - 48) := by
  have bounds := bounds_of_isAsciiDigit digit
  have found : digitZeros.find? (fun first => first ≤ c.toNat && c.toNat < first + 10) = some 48 := by
    rw [digitZeros, List.find?_cons_of_pos]
    simp only [Bool.and_eq_true, decide_eq_true_eq]
    omega
  rw [digitValue?, found]
  rfl

theorem isDigit_of_isAsciiDigit {c : Char} (digit : c.isDigit = true) : isDigit c = true := by
  rw [isDigit, digitValue?_of_isAsciiDigit digit]
  rfl

def Stops (p : Char → Bool) (cs : List Char) : Prop := ∀ c ∈ cs.head?, p c = false

theorem stops_nil (p : Char → Bool) : Stops p [] := by
  intro c member
  simp at member

theorem stops_cons {p : Char → Bool} {c : Char} {cs : List Char} :
    Stops p (c :: cs) ↔ p c = false := by
  simp [Stops]

theorem takeWhile_append {p : Char → Bool} {run rest : List Char}
    (all : ∀ c ∈ run, p c = true) (stop : Stops p rest) : (run ++ rest).takeWhile p = run := by
  rw [List.takeWhile_append_of_pos all]
  cases rest with
  | nil => simp
  | cons c rest => simp [stops_cons.mp stop]

theorem dropWhile_append {p : Char → Bool} {run rest : List Char}
    (all : ∀ c ∈ run, p c = true) (stop : Stops p rest) : (run ++ rest).dropWhile p = rest := by
  rw [List.dropWhile_append_of_pos all]
  cases rest with
  | nil => simp
  | cons c rest => simp [stops_cons.mp stop]

theorem stops_dropWhile (p : Char → Bool) (cs : List Char) : Stops p (cs.dropWhile p) := by
  intro c member
  have := List.head?_dropWhile_not p cs
  rw [Option.mem_def.mp member] at this
  simpa using this

theorem run?_append {p : Char → Bool} {run rest : List Char} (nonempty : run ≠ [])
    (all : ∀ c ∈ run, p c = true) (stop : Stops p rest) : run? p (run ++ rest) = some run := by
  rw [run?, takeWhile_append all stop, if_neg nonempty]

theorem run?_eq_some {p : Char → Bool} {cs run : List Char} (h : run? p cs = some run) :
    ∃ rest, cs = run ++ rest ∧ run ≠ [] ∧ (∀ c ∈ run, p c = true) ∧ Stops p rest := by
  have nonempty := run?_ne_nil h
  unfold run? at h
  split at h
  · contradiction
  · have same : cs.takeWhile p = run := Option.some.inj h
    refine ⟨cs.dropWhile p, ?_, nonempty, ?_, stops_dropWhile p cs⟩
    · rw [← same, List.takeWhile_append_dropWhile]
    · intro c member
      rw [← same] at member
      exact List.mem_takeWhile_imp member

theorem run?_eq_none {p : Char → Bool} {cs : List Char} (stop : Stops p cs) :
    run? p cs = none := by
  have nothing : ([] ++ cs).takeWhile p = [] := takeWhile_append (by simp) stop
  rw [List.nil_append] at nothing
  rw [run?, if_pos nothing]

theorem decimal?_append {text rest : List Char} (decimal : IsDecimal text)
    (stop : Stops isDigit rest) : decimal? (text ++ rest) = some text := by
  obtain ⟨whole, places, ⟨wholeNonempty, wholeDigits⟩, ⟨placesNonempty, placesDigits⟩, rfl⟩ :=
    decimal
  have point : Stops isDigit ('.' :: (places ++ rest)) := stops_cons.mpr (by decide)
  have split : whole ++ '.' :: places ++ rest = whole ++ '.' :: (places ++ rest) := by simp
  rw [split, decimal?, run?_append wholeNonempty wholeDigits point,
    dropWhile_append wholeDigits point]
  simp [run?_append placesNonempty placesDigits stop]

theorem decimal?_eq_some {cs text : List Char} (h : decimal? cs = some text) :
    ∃ rest, cs = text ++ rest ∧ IsDecimal text ∧ Stops isDigit rest := by
  unfold decimal? at h
  split at h
  · next whole tail found behind =>
    rcases Option.map_eq_some_iff.mp h with ⟨places, more, rfl⟩
    rcases run?_eq_some found with ⟨after, rfl, wholeNonempty, wholeDigits, wholeStop⟩
    rcases run?_eq_some more with ⟨rest, rfl, placesNonempty, placesDigits, placesStop⟩
    rw [dropWhile_append wholeDigits wholeStop] at behind
    refine ⟨rest, ?_, ⟨whole, places, ⟨wholeNonempty, wholeDigits⟩,
      ⟨placesNonempty, placesDigits⟩, rfl⟩, placesStop⟩
    simp [behind]
  · contradiction

theorem decimal?_eq_none {cs : List Char} (stop : Stops isDigit cs) : decimal? cs = none := by
  rw [decimal?, run?_eq_none stop]

def Places (cs : List Char) : Prop := ∃ d tail, cs = '.' :: d :: tail ∧ isDigit d = true

theorem not_places_of_stops {cs : List Char} (noPoint : Stops (· = '.') cs) : ¬ Places cs := by
  rintro ⟨d, tail, rfl, _⟩
  simp [Stops] at noPoint

theorem decimal?_eq_none_iff_of_digits {text rest : List Char} (integer : IsInteger text)
    (stop : Stops isDigit rest) : decimal? (text ++ rest) = none ↔ ¬ Places rest := by
  unfold decimal?
  rw [run?_append integer.1 integer.2 stop, dropWhile_append integer.2 stop]
  split
  · next behind _ =>
    rw [Option.map_eq_none_iff]
    cases behind with
    | nil => simp [Places, run?]
    | cons d tail => cases digit : isDigit d <;> simp [Places, run?, digit]
  · next other =>
    simp only [true_iff]
    rintro ⟨d, tail, rfl, _⟩
    exact other _ _ rfl rfl

theorem not_isInteger_of_isDecimal {text : List Char} (decimal : IsDecimal text) :
    ¬ IsInteger text := by
  rcases decimal with ⟨whole, places, _, _, rfl⟩
  intro integer
  exact absurd (integer.2 '.' (by simp)) (by decide)

theorem identifier?_append {text rest : List Char} (identifier : IsIdentifier text)
    (stop : Stops Char.isAlphanum rest) : identifier? (text ++ rest) = some text := by
  rcases identifier with ⟨c, tail, rfl, letter, alphanumeric⟩
  simp [identifier?, letter, takeWhile_append alphanumeric stop]

theorem identifier?_eq_some {cs text : List Char} (h : identifier? cs = some text) :
    ∃ rest, cs = text ++ rest ∧ IsIdentifier text ∧ Stops Char.isAlphanum rest := by
  unfold identifier? at h
  split at h
  · next c tail =>
    split at h
    · next letter =>
      have same : c :: tail.takeWhile Char.isAlphanum = text := Option.some.inj h
      refine ⟨tail.dropWhile Char.isAlphanum, ?_, ⟨c, _, same.symm, letter, ?_⟩,
        stops_dropWhile _ _⟩
      · simp [← same]
      · intro d member
        exact List.mem_takeWhile_imp member
    · contradiction
  · contradiction

theorem identifier?_eq_none {cs : List Char} (stop : Stops Char.isAlpha cs) :
    identifier? cs = none := by
  cases cs with
  | nil => rfl
  | cons c rest => simp [identifier?, stops_cons.mp stop]

theorem decimal?_eq_self_iff {cs : List Char} : decimal? cs = some cs ↔ IsDecimal cs := by
  constructor
  · intro h
    rcases decimal?_eq_some h with ⟨rest, _, decimal, _⟩
    exact decimal
  · intro decimal
    simpa using decimal?_append decimal (stops_nil _)

theorem run?_isDigit_eq_self_iff {cs : List Char} :
    run? isDigit cs = some cs ↔ IsInteger cs := by
  constructor
  · intro h
    rcases run?_eq_some h with ⟨rest, _, nonempty, digits, _⟩
    exact ⟨nonempty, digits⟩
  · intro ⟨nonempty, digits⟩
    simpa using run?_append nonempty digits (stops_nil _)

theorem identifier?_eq_self_iff {cs : List Char} :
    identifier? cs = some cs ↔ IsIdentifier cs := by
  constructor
  · intro h
    rcases identifier?_eq_some h with ⟨rest, _, identifier, _⟩
    exact identifier
  · intro identifier
    simpa using identifier?_append identifier (stops_nil _)

end Text

def TokenKind.Spells : TokenKind → List Char → Prop
  | literal, cs => Text.IsDecimal cs ∨ Text.IsInteger cs
  | identifier, cs => Text.IsIdentifier cs
  | operator, cs => ∃ op : Operator, cs = op.symbol.toList
  | delimiter, cs => cs = ['('] ∨ cs = [')']

/-- A token as scanning makes them, wherever it stands: its text is one of its kind, and its
priority the one that `Token.create` gives. -/
structure Token.WellFormed (t : Token) : Prop where
  spelled : t.kind.Spells t.text.toList
  created : Token.create t.text t.kind t.position = .ok t

theorem Token.create_eq_ok_iff {t : Token} :
    Token.create t.text t.kind t.position = .ok t ↔
      Token.priority? t.kind t.text = some t.priority := by
  unfold Token.create
  split
  · next priority h =>
    rw [h, Except.ok.injEq, Option.some.injEq]
    constructor
    · intro same
      rw [← same]
    · rintro rfl
      rfl
  · next h => simp [h]

theorem Token.WellFormed.priority?_eq {t : Token} (wellFormed : t.WellFormed) :
    Token.priority? t.kind t.text = some t.priority :=
  Token.create_eq_ok_iff.mp wellFormed.created

theorem Token.WellFormed.isOpen_or_isClose {t : Token} (wellFormed : t.WellFormed)
    (delimiter : t.isDelimiter = true) : t.isOpen = true ∨ t.isClose = true := by
  have spelled := wellFormed.spelled
  rw [of_decide_eq_true delimiter] at spelled
  rcases spelled with opener | closer
  · have text : t.text = "(" := String.toList_inj.mp (opener.trans rfl)
    exact .inl (by simp [Token.isOpen, delimiter, text])
  · have text : t.text = ")" := String.toList_inj.mp (closer.trans rfl)
    exact .inr (by simp [Token.isClose, delimiter, text])

end LineCalc
