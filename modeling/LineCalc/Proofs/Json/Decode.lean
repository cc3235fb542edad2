import LineCalc.Json
import LineCalc.Proofs.Number.Numeral
import LineCalc.Proofs.Token.Pattern

/-! Reading JSON back.

The decoder takes the texts that the grammar of JSON allows and no others: no comma before a closing bracket,
no zero in front of other digits, no names for infinities, no bare control character and no half of a
surrogate pair in a string, and no key twice in an object. How the text of a double is read is left open: the
decoder is given a reader for these. -/

namespace LineCalc.Json

abbrev Reader (α : Type) := List Char → Option (α × List Char)

def isSpace (c : Char) : Bool := c = ' ' || c = '\n' || c = '\r' || c = '\t'

@[simp] abbrev Blank (cs : List Char) : Prop := ∀ c ∈ cs, isSpace c = true

def skip (cs : List Char) : List Char := cs.dropWhile isSpace

def expect? (expected : Char) (cs : List Char) : Option (List Char) :=
  match skip cs with
  | [] => none
  | c :: rest => if c = expected then some rest else none

def hexDigit? (c : Char) : Option Nat :=
  if c.isDigit then some (c.toNat - '0'.toNat)
  else if 'a' ≤ c ∧ c ≤ 'f' then some (c.toNat - 'a'.toNat + 10)
  else if 'A' ≤ c ∧ c ≤ 'F' then some (c.toNat - 'A'.toNat + 10)
  else none

def hexNumber? (digits : List Char) : Option Nat :=
  digits.foldlM (fun n c => (hexDigit? c).map (16 * n + ·)) 0

def escapeCode? (c : Char) : Option Nat :=
  [('"', 0x22), ('\\', 0x5C), ('/', 0x2F), ('b', 0x08), ('f', 0x0C), ('n', 0x0A), ('r', 0x0D),
    ('t', 0x09)].lookup c

/-- The codes of a string up to its closing quote: those of its characters, and units of UTF-16. -/
def codes? : Reader (List Nat)
  | [] => none
  | c :: rest =>
    if c = '"' then some ([], rest)
    else if c = '\\' then
      match rest with
      | [] => none
      | letter :: rest =>
        if letter = 'u' then
          match rest with
          | a :: b :: c :: d :: rest => do
            let unit ← hexNumber? [a, b, c, d]
            let (codes, rest) ← codes? rest
            return (unit :: codes, rest)
          | _ => none
        else do
          let code ← escapeCode? letter
          let (codes, rest) ← codes? rest
          return (code :: codes, rest)
    else if c.toNat < 0x20 then none
    else do
      let (codes, rest) ← codes? rest
      return (c.toNat :: codes, rest)

/-- The characters of a row of codes, where the halves of a surrogate pair stand side by side. -/
def characters? : List Nat → Option (List Char)
  | [] => some []
  | code :: rest =>
    if 0xD800 ≤ code ∧ code < 0xDC00 then
      match rest with
      | [] => none
      | low :: rest =>
        if 0xDC00 ≤ low ∧ low < 0xE000 then
          (characters? rest).map (Char.ofNat (0x10000 + (code - 0xD800) * 0x400 + (low - 0xDC00)) :: ·)
        else none
    else if 0xDC00 ≤ code ∧ code < 0xE000 then none
    else (characters? rest).map (Char.ofNat code :: ·)

def string? : Reader String := fun cs => do
  let (codes, rest) ← codes? cs
  let text ← characters? codes
  return (String.ofList text, rest)

def optional (p : Char → Bool) : List Char → List Char × List Char
  | [] => ([], [])
  | c :: rest => if p c then ([c], rest) else ([], c :: rest)

def digits? : Reader (List Char) := fun cs =>
  if cs.takeWhile Char.isDigit = [] then none
  else some (cs.takeWhile Char.isDigit, cs.dropWhile Char.isDigit)

def whole? : Reader (List Char) := fun cs => do
  let (run, rest) ← digits? cs
  if run.head? = some '0' ∧ run ≠ ['0'] then none else return (run, rest)

def fraction? : Reader (List Char)
  | [] => some ([], [])
  | c :: rest => do
    if c = '.' then
      let (run, rest) ← digits? rest
      return (c :: run, rest)
    else return ([], c :: rest)

def exponent? : Reader (List Char)
  | [] => some ([], [])
  | c :: rest => do
    if c = 'e' ∨ c = 'E' then
      let (sign, rest) := optional (fun c => c = '+' || c = '-') rest
      let (run, rest) ← digits? rest
      return (c :: sign ++ run, rest)
    else return ([], c :: rest)

def number? (read : List Char → Float) : Reader Number := fun cs => do
  let (minus, cs) := optional (· = '-') cs
  let (whole, cs) ← whole? cs
  let (fraction, cs) ← fraction? cs
  let (exponent, cs) ← exponent? cs
  if fraction.isEmpty && exponent.isEmpty then
    let size : Int := Nat.ofDigitChars 10 whole 0
    return (.int (if minus.isEmpty then size else -size), cs)
  else return (.float (read (minus ++ whole ++ fraction ++ exponent)), cs)

def keywords : List (String × Json) := [("null", null), ("true", bool true), ("false", bool false)]

def keyword? : Reader Json := fun cs =>
  keywords.findSome? fun (word, document) =>
    if word.toList.isPrefixOf cs then some (document, cs.drop word.toList.length) else none

def items? {α : Type} (closing : Char) (item? : Reader α) : (room : Nat) → Reader (List α)
  | 0, _ => none
  | room + 1, cs => do
    let (item, cs) ← item? cs
    match skip cs with
    | [] => none
    | c :: rest =>
      if c = closing then some ([item], rest)
      else if c = ',' then do
        let (items, rest) ← items? closing item? room rest
        return (item :: items, rest)
      else none

def enclosed? {α : Type} (closing : Char) (item? : Reader α) (room : Nat) : Reader (List α) := fun cs =>
  (expect? closing cs).map (([], ·)) |>.or (items? closing item? room cs)

def member? (value? : Reader Json) : Reader (String × Json) := fun cs => do
  let cs ← expect? '"' cs
  let (key, cs) ← string? cs
  let cs ← expect? ':' cs
  let (item, cs) ← value? cs
  return ((key, item), cs)

/-- A value that is nowhere deeper than `room` and has nowhere more than `room` items. -/
def value? (read : List Char → Float) : (room : Nat) → Reader Json
  | 0, _ => none
  | room + 1, cs =>
    match skip cs with
    | [] => none
    | c :: rest =>
      if c = '"' then (string? rest).map fun (s, rest) => (string s, rest)
      else if c = '[' then
        (enclosed? ']' (value? read room) room rest).map fun (items, rest) => (array items, rest)
      else if c = '\x7b' then do
        let (members, rest) ← enclosed? '\x7d' (member? (value? read room)) room rest
        if (members.map Prod.fst).Nodup then return (object members, rest) else none
      else (keyword? (c :: rest)).or ((number? read (c :: rest)).map fun (n, rest) => (number n, rest))

def decode? (read : List Char → Float) (text : String) : Option Json := do
  let (document, rest) ← value? read (text.length + 1) text.toList
  if (skip rest).isEmpty then return document else none

example (read : List Char → Float) : decode? read "[1, NaN]" = none := by rfl

example (read : List Char → Float) : decode? read "[1, 2,]" = none := by rfl

def units (c : Char) : List Nat :=
  if c.toNat < 0x10000 then [c.toNat]
  else [0xD800 + (c.toNat - 0x10000) / 0x400, 0xDC00 + (c.toNat - 0x10000) % 0x400]

theorem hexDigit?_digitChar : ∀ d < 16, hexDigit? (Nat.digitChar d) = some d := by decide

theorem hexNumber?_hex (width n : Nat) : hexNumber? (Text.hex width n) = some (n % 16 ^ width) := by
  induction width generalizing n with
  | zero => simp [Text.hex, hexNumber?, Nat.mod_one]
  | succ width ih =>
      have whole : 16 * (n / 16 % 16 ^ width) + n % 16 = n % 16 ^ (width + 1) := by
        rw [Nat.pow_succ', Nat.mod_mul]
        omega
      unfold hexNumber? at ih ⊢
      rw [Text.hex, List.foldlM_append, ih, Option.bind_eq_bind, Option.bind_some, List.foldlM_cons,
        hexDigit?_digitChar _ (Nat.mod_lt _ (by decide)), ← whole]
      rfl

theorem codes?_unitEscape {unit : Nat} (small : unit < 0x10000) (rest : List Char) :
    codes? (unitEscape unit ++ rest) = (codes? rest).map fun read => (unit :: read.1, read.2) := by
  have digits : hexNumber? (Text.hex 4 unit) = some unit := by
    rw [hexNumber?_hex]
    exact congrArg some (Nat.mod_eq_of_lt small)
  simp only [Text.hex, List.nil_append, List.cons_append] at digits
  simp only [unitEscape, Text.hex, List.nil_append, List.cons_append]
  rw [codes?.eq_def]
  simp only [Char.reduceEq, if_false, if_true, digits]
  cases codes? rest <;> rfl

theorem codes?_escape {letter : Char} {code : Nat} (known : escapeCode? letter = some code)
    (short : letter ≠ 'u') (rest : List Char) :
    codes? ('\\' :: letter :: rest) = (codes? rest).map fun read => (code :: read.1, read.2) := by
  rw [codes?.eq_def]
  simp only [Char.reduceEq, if_false, if_true, if_neg short, known]
  cases codes? rest <;> rfl

theorem codes?_raw {c : Char} (printable : 0x20 ≤ c.toNat) (quote : c ≠ '"') (slash : c ≠ '\\')
    (rest : List Char) :
    codes? (c :: rest) = (codes? rest).map fun read => (c.toNat :: read.1, read.2) := by
  rw [codes?.eq_def]
  simp only [if_neg quote, if_neg slash, if_neg (Nat.not_lt.mpr printable)]
  cases codes? rest <;> rfl

inductive Escaped (c : Char) : List Char → Prop
  | letter {letter : Char} : escapeCode? letter = some c.toNat → letter ≠ 'u' → letter.toNat < 128 →
    c.toNat < 0x10000 → Escaped c ['\\', letter]
  | raw : 0x20 ≤ c.toNat → c.toNat < 0x7F → c ≠ '"' → c ≠ '\\' → Escaped c [c]
  | unit : c.toNat < 0x10000 → Escaped c (unitEscape c.toNat)
  | pair : ¬ c.toNat < 0x10000 → Escaped c (unitEscape (0xD800 + (c.toNat - 0x10000) / 0x400) ++
      unitEscape (0xDC00 + (c.toNat - 0x10000) % 0x400))

theorem escaped_escapedChar (c : Char) : Escaped c (escapedChar c) := by
  unfold escapedChar
  by_cases quote : c = '"'
  · subst quote
    exact .letter rfl (by decide) (by decide) (by decide)
  rw [if_neg quote]
  by_cases slash : c = '\\'
  · subst slash
    exact .letter rfl (by decide) (by decide) (by decide)
  rw [if_neg slash]
  by_cases feed : c = '\n'
  · subst feed
    exact .letter rfl (by decide) (by decide) (by decide)
  rw [if_neg feed]
  by_cases back : c = '\r'
  · subst back
    exact .letter rfl (by decide) (by decide) (by decide)
  rw [if_neg back]
  by_cases tab : c = '\t'
  · subst tab
    exact .letter rfl (by decide) (by decide) (by decide)
  rw [if_neg tab]
  by_cases form : c.toNat = 0x0C
  · rw [if_pos form]
    exact .letter (by rw [form]; rfl) (by decide) (by decide) (by omega)
  rw [if_neg form]
  by_cases erase : c.toNat = 0x08
  · rw [if_pos erase]
    exact .letter (by rw [erase]; rfl) (by decide) (by decide) (by omega)
  rw [if_neg erase]
  by_cases printable : 0x20 ≤ c.toNat ∧ c.toNat < 0x7F
  · rw [if_pos printable]
    exact .raw printable.1 printable.2 quote slash
  rw [if_neg printable]
  by_cases small : c.toNat < 0x10000
  · rw [if_pos small]
    exact .unit small
  · rw [if_neg small]
    exact .pair small

theorem codes?_escapedChar (c : Char) (rest : List Char) :
    codes? (escapedChar c ++ rest) = (codes? rest).map fun read => (units c ++ read.1, read.2) := by
  have own (small : c.toNat < 0x10000) : units c = [c.toNat] := if_pos small
  have valid : c.toNat < 0xD800 ∨ 0xDFFF < c.toNat ∧ c.toNat < 0x110000 := c.valid
  have escaped := escaped_escapedChar c
  generalize escapedChar c = text at escaped ⊢
  cases escaped with
  | letter known short _ small =>
      rw [own small]
      exact codes?_escape known short rest
  | raw printable small quote slash =>
      rw [own (by omega)]
      exact codes?_raw printable quote slash rest
  | unit small =>
      rw [own small]
      exact codes?_unitEscape small rest
  | pair large =>
      rw [List.append_assoc, codes?_unitEscape (by omega), codes?_unitEscape (by omega), units,
        if_neg large]
      cases codes? rest <;> rfl

theorem codes?_flatMap (cs rest : List Char) :
    codes? (cs.flatMap escapedChar ++ '"' :: rest) = some (cs.flatMap units, rest) := by
  induction cs with
  | nil =>
      rw [codes?.eq_def]
      rfl
  | cons c cs ih =>
      rw [List.flatMap_cons, List.append_assoc, codes?_escapedChar, ih]
      rfl

theorem characters?_units (c : Char) (codes : List Nat) :
    characters? (units c ++ codes) = (characters? codes).map (c :: ·) := by
  have valid : c.toNat < 0xD800 ∨ 0xDFFF < c.toNat ∧ c.toNat < 0x110000 := c.valid
  unfold units
  split
  case isTrue small =>
      rw [List.cons_append, characters?.eq_def]
      dsimp only
      rw [if_neg (by omega), if_neg (by omega), Char.ofNat_toNat]
      rfl
  case isFalse large =>
      have joined : 0x10000 + (0xD800 + (c.toNat - 0x10000) / 0x400 - 0xD800) * 0x400 +
          (0xDC00 + (c.toNat - 0x10000) % 0x400 - 0xDC00) = c.toNat := by omega
      rw [List.cons_append, characters?.eq_def, List.cons_append]
      dsimp only
      rw [if_pos (by omega), if_pos (by omega), joined, Char.ofNat_toNat]
      rfl

theorem characters?_flatMap (cs : List Char) : characters? (cs.flatMap units) = some cs := by
  induction cs with
  | nil => rfl
  | cons c cs ih => rw [List.flatMap_cons, characters?_units, ih, Option.map_some]

theorem string?_stringText (s : String) (rest : List Char) :
    ∃ quoted, (stringText s).toList = '"' :: quoted ∧ string? (quoted ++ rest) = some (s, rest) := by
  refine ⟨s.toList.flatMap escapedChar ++ ['"'], ?_, ?_⟩
  · rw [stringText, String.toList_ofList]
    rfl
  · rw [List.append_assoc, string?, List.singleton_append, codes?_flatMap]
    simp only [Option.bind_eq_bind, Option.bind_some, characters?_flatMap]
    rw [String.ofList_toList]
    rfl

@[simp] abbrev Ascii (cs : List Char) : Prop := ∀ c ∈ cs, c.toNat < 128

theorem toNat_digitChar_lt : ∀ d < 16, (Nat.digitChar d).toNat < 128 := by decide

theorem ascii_hex (width n : Nat) : Ascii (Text.hex width n) := by
  induction width generalizing n with
  | zero => simp [Text.hex]
  | succ width ih =>
      intro c member
      rw [Text.hex, List.mem_append] at member
      rcases member with member | last
      · exact ih _ c member
      · rw [List.mem_singleton.mp last]
        exact toNat_digitChar_lt _ (Nat.mod_lt _ (by decide))

theorem ascii_escapedChar (c : Char) : Ascii (escapedChar c) := by
  have unit (n : Nat) : Ascii (unitEscape n) := by
    simp only [Ascii, unitEscape, List.forall_mem_cons]
    exact ⟨by decide, by decide, ascii_hex 4 n⟩
  have escaped := escaped_escapedChar c
  generalize escapedChar c = text at escaped ⊢
  cases escaped with
  | letter _ _ small _ => simpa using small
  | raw _ small _ _ =>
      intro d member
      rw [List.mem_singleton.mp member]
      omega
  | unit _ => exact unit _
  | pair _ => exact List.forall_mem_append.mpr ⟨unit _, unit _⟩

theorem ascii_stringText (s : String) : Ascii (stringText s).toList := by
  intro c member
  rw [stringText, String.toList_ofList, List.cons_append, List.mem_cons, List.mem_append,
    List.mem_singleton, List.mem_flatMap] at member
  rcases member with rfl | ⟨d, _, member⟩ | rfl
  · decide
  · exact ascii_escapedChar d c member
  · decide

def isNumeric (c : Char) : Bool := c.isDigit || c = '.' || c = 'e' || c = 'E'

def numberOf (read : List Char → Float) (n : Numeral) : Number :=
  if n.isInteger then
    let size : Int := Nat.ofDigitChars 10 n.whole 0
    .int (if n.negative then -size else size)
  else .float (read n.text)

theorem stops_isDigit {rest : List Char} (stop : Text.Stops isNumeric rest) :
    Text.Stops Char.isDigit rest := by
  intro c first
  have numeric := stop c first
  simp only [isNumeric, Bool.or_eq_false_iff] at numeric
  exact numeric.1.1.1

theorem digits?_append {run rest : List Char} (nonempty : run ≠ []) (all : ∀ c ∈ run, c.isDigit = true)
    (stop : Text.Stops Char.isDigit rest) : digits? (run ++ rest) = some (run, rest) := by
  rw [digits?, Text.takeWhile_append all stop, Text.dropWhile_append all stop, if_neg nonempty]

theorem exponent?_append (n : Numeral) {rest : List Char} (stop : Text.Stops isNumeric rest) :
    exponent? (n.exponent ++ rest) = some (n.exponent, rest) := by
  rcases n.raised with none | ⟨sign, run, raised, signs, nonempty, all⟩
  · rw [none, List.nil_append]
    cases rest with
    | nil => rfl
    | cons c rest =>
        have numeric := Text.stops_cons.mp stop
        simp only [isNumeric, Bool.or_eq_false_iff, decide_eq_false_iff_not] at numeric
        simp [exponent?, numeric]
  · have signed : optional (fun c => c = '+' || c = '-') (sign :: (run ++ rest)) =
        ([sign], run ++ rest) := by
      rcases signs with plus | minus
      · rw [plus]
        rfl
      · rw [minus]
        rfl
    rw [raised, List.cons_append, List.cons_append, exponent?, if_pos (.inl rfl), signed]
    simp only [digits?_append nonempty all (stops_isDigit stop)]
    rfl

theorem stops_exponent (n : Numeral) {rest : List Char} (stop : Text.Stops isNumeric rest) :
    Text.Stops (fun c => c.isDigit || c = '.') (n.exponent ++ rest) := by
  rcases n.raised with none | ⟨sign, run, raised, _⟩
  · rw [none, List.nil_append]
    intro c first
    have numeric := stop c first
    simp only [isNumeric, Bool.or_eq_false_iff] at numeric ⊢
    exact numeric.1.1
  · rw [raised]
    exact Text.stops_cons.mpr rfl

theorem fraction?_append (n : Numeral) {rest : List Char}
    (stop : Text.Stops (fun c => c.isDigit || c = '.') rest) :
    fraction? (n.fraction ++ rest) = some (n.fraction, rest) := by
  unfold Numeral.fraction
  split
  case isTrue =>
      rw [List.nil_append]
      cases rest with
      | nil => rfl
      | cons c rest =>
          have other := Text.stops_cons.mp stop
          simp only [Bool.or_eq_false_iff, decide_eq_false_iff_not] at other
          simp [fraction?, other]
  case isFalse places =>
      have digits : Text.Stops Char.isDigit rest := by
        intro c first
        exact (Bool.or_eq_false_iff.mp (stop c first)).1
      rw [List.cons_append, fraction?, if_pos rfl]
      simp only [digits?_append places n.placed digits]
      rfl

theorem stops_fraction (n : Numeral) {rest : List Char}
    (stop : Text.Stops (fun c => c.isDigit || c = '.') rest) :
    Text.Stops Char.isDigit (n.fraction ++ rest) := by
  unfold Numeral.fraction
  split
  · intro c first
    exact (Bool.or_eq_false_iff.mp (stop c first)).1
  · exact Text.stops_cons.mpr rfl

theorem exists_whole (n : Numeral) :
    ∃ first run, n.whole = first :: run ∧ (∀ c ∈ n.whole, c.isDigit = true) ∧
      ¬ (n.whole.head? = some '0' ∧ n.whole ≠ ['0']) := by
  rcases n.leads with zero | ⟨first, run, split, nonzero, digits⟩
  · exact ⟨'0', [], zero, by simp [zero], by simp [zero]⟩
  · exact ⟨first, run, split, digits, by simp [split, nonzero]⟩

theorem whole?_append (n : Numeral) {rest : List Char} (stop : Text.Stops Char.isDigit rest) :
    whole? (n.whole ++ rest) = some (n.whole, rest) := by
  obtain ⟨first, run, split, digits, leads⟩ := exists_whole n
  rw [whole?, digits?_append (by simp [split]) digits stop]
  simp only [Option.bind_eq_bind, Option.bind_some, if_neg leads]
  rfl

theorem optional_minus (n : Numeral) (rest : List Char) :
    optional (· = '-') ((if n.negative then ['-'] else []) ++ (n.whole ++ rest)) =
      (if n.negative then ['-'] else [], n.whole ++ rest) := by
  obtain ⟨first, run, split, digits, _⟩ := exists_whole n
  cases n.negative with
  | true => rfl
  | false =>
      have digit := digits first (by simp [split])
      have other : first ≠ '-' := by
        intro minus
        rw [minus] at digit
        cases digit
      simp [split, optional, other]

theorem number?_text (read : List Char → Float) (n : Numeral) {rest : List Char}
    (stop : Text.Stops isNumeric rest) : number? read (n.text ++ rest) = some (numberOf read n, rest) := by
  have text : n.text ++ rest = (if n.negative then ['-'] else []) ++
      (n.whole ++ (n.fraction ++ (n.exponent ++ rest))) := by
    simp only [Numeral.text, List.append_assoc]
  have integer : (n.fraction.isEmpty && n.exponent.isEmpty) = n.isInteger := by
    unfold Numeral.fraction Numeral.isInteger
    split <;> simp_all
  have behind := stops_exponent n stop
  rw [text, number?, optional_minus]
  simp only [whole?_append n (stops_fraction n behind), fraction?_append n behind, exponent?_append n stop,
    Option.bind_eq_bind, Option.bind_some, integer, numberOf]
  cases n.isInteger with
  | false => rfl
  | true => cases n.negative <;> rfl

end LineCalc.Json
