import Mathlib.Data.List.Forall2
import LineCalc.Proofs.Expr.Shape
import LineCalc.Proofs.Json.Decode

namespace LineCalc.Json

inductive Holds (n : Number) : Json → Prop
  | here : Holds n (number n)
  | item {items : List Json} {item : Json} : item ∈ items → Holds n item → Holds n (array items)
  | member {members : List (String × Json)} {key : String} {item : Json} :
    (key, item) ∈ members → Holds n item → Holds n (object members)

/-- The documents that have a text as JSON: each number is finite, and no object has a key twice. -/
inductive Regular : Json → Prop
  | null : Regular null
  | bool (b : Bool) : Regular (bool b)
  | string (s : String) : Regular (string s)
  | number {n : Number} : n.exact.isFinite = true → Regular (number n)
  | array {items : List Json} : (∀ item ∈ items, Regular item) → Regular (array items)
  | object {members : List (String × Json)} : (members.map Prod.fst).Nodup →
    (∀ member ∈ members, Regular member.2) → Regular (object members)

def HoldsLong (document : Json) : Prop := ∃ n, document.Holds n ∧ (Value.number n).IsLong

inductive Nested : Json → Nat → Prop
  | null {depth : Nat} : Nested null depth
  | bool {depth : Nat} (b : Bool) : Nested (bool b) depth
  | string {depth : Nat} (s : String) : Nested (string s) depth
  | number {depth : Nat} (n : Number) : Nested (number n) depth
  | array {depth : Nat} {items : List Json} : (∀ item ∈ items, Nested item depth) →
    Nested (array items) (depth + 1)
  | object {depth : Nat} {members : List (String × Json)} :
    (∀ member ∈ members, Nested member.2 depth) → Nested (object members) (depth + 1)

theorem Nested.mono {document : Json} {depth more : Nat} (nested : document.Nested depth)
    (le : depth ≤ more) : document.Nested more := by
  induction nested generalizing more with
  | null => exact .null
  | bool b => exact .bool b
  | string s => exact .string s
  | number n => exact .number n
  | array _ ih =>
      obtain ⟨more, rfl⟩ : ∃ n, more = n + 1 := ⟨more - 1, by omega⟩
      exact .array fun item member => ih item member (by omega)
  | object _ ih =>
      obtain ⟨more, rfl⟩ : ∃ n, more = n + 1 := ⟨more - 1, by omega⟩
      exact .object fun member present => ih member present (by omega)

theorem Nested.exists_array {items : List Json} {depth : Nat} (nested : (Json.array items).Nested depth) :
    ∃ less, depth = less + 1 ∧ ∀ item ∈ items, item.Nested less := by
  cases nested with
  | array inner => exact ⟨_, rfl, inner⟩

theorem Nested.exists_object {members : List (String × Json)} {depth : Nat}
    (nested : (Json.object members).Nested depth) :
    ∃ less, depth = less + 1 ∧ ∀ member ∈ members, member.2.Nested less := by
  cases nested with
  | object inner => exact ⟨_, rfl, inner⟩

section Holds

variable {n : Number}

@[simp] theorem not_holds_null : ¬ null.Holds n := nofun

@[simp] theorem not_holds_bool {b : Bool} : ¬ (bool b).Holds n := nofun

@[simp] theorem not_holds_string {s : String} : ¬ (string s).Holds n := nofun

@[simp] theorem holds_number {m : Number} : (number m).Holds n ↔ n = m := by
  constructor
  · intro holds
    cases holds
    rfl
  · intro same
    rw [same]
    exact .here

@[simp] theorem holds_array {items : List Json} :
    (array items).Holds n ↔ ∃ item ∈ items, item.Holds n := by
  constructor
  · intro holds
    cases holds with
    | item member held => exact ⟨_, member, held⟩
  · intro ⟨item, member, held⟩
    exact .item member held

@[simp] theorem holds_object {members : List (String × Json)} :
    (object members).Holds n ↔ ∃ member ∈ members, member.2.Holds n := by
  constructor
  · intro holds
    cases holds with
    | member member held => exact ⟨_, member, held⟩
  · intro ⟨member, present, held⟩
    exact .member present held

theorem holdsLong_array {items : List Json} :
    (array items).HoldsLong ↔ ∃ item ∈ items, item.HoldsLong := by
  simp only [HoldsLong, holds_array]
  exact ⟨fun ⟨n, ⟨item, member, holds⟩, long⟩ => ⟨item, member, n, holds, long⟩,
    fun ⟨item, member, n, holds, long⟩ => ⟨n, ⟨item, member, holds⟩, long⟩⟩

theorem holdsLong_object {members : List (String × Json)} :
    (object members).HoldsLong ↔ ∃ member ∈ members, member.2.HoldsLong := by
  simp only [HoldsLong, holds_object]
  exact ⟨fun ⟨n, ⟨member, present, holds⟩, long⟩ => ⟨member, present, n, holds, long⟩,
    fun ⟨member, present, n, holds, long⟩ => ⟨n, ⟨member, present, holds⟩, long⟩⟩

end Holds

/-- A text that a reader finds behind blanks, and that ends where something else than a number begins. It
starts with what is neither a blank nor a closing bracket. -/
structure Shows {α : Type} (reader : Reader α) (a : α) (text : List Char) : Prop where
  ascii : Ascii text
  opens : ∃ first rest, text = first :: rest ∧ isSpace first = false ∧ first ≠ ']' ∧ first ≠ '\x7d'
  reads : ∀ lead rest, Blank lead → Text.Stops isNumeric rest →
    reader (lead ++ (text ++ rest)) = some (a, rest)

abbrev IsClosing (c : Char) : Prop := c = ']' ∨ c = '\x7d'

theorem skip_append {lead : List Char} (blank : Blank lead) {first : Char}
    (other : isSpace first = false) (rest : List Char) : skip (lead ++ first :: rest) = first :: rest :=
  Text.dropWhile_append blank (Text.stops_cons.mpr other)

theorem expect?_append {lead : List Char} (blank : Blank lead) {first : Char}
    (other : isSpace first = false) (expected : Char) (rest : List Char) :
    expect? expected (lead ++ first :: rest) = if first = expected then some rest else none := by
  rw [expect?, skip_append blank other]

theorem closing_other {closing : Char} (bracket : IsClosing closing) :
    isSpace closing = false ∧ closing ≠ ',' ∧ isNumeric closing = false := by
  rcases bracket with rfl | rfl <;> decide

theorem not_isNumeric_of_isSpace {c : Char} (blank : isSpace c = true) : isNumeric c = false := by
  simp only [isSpace, Bool.or_eq_true, decide_eq_true_eq] at blank
  rcases blank with ((rfl | rfl) | rfl) | rfl <;> decide

theorem stops_blank {lead : List Char} (blank : Blank lead) {first : Char}
    (other : isNumeric first = false) (rest : List Char) :
    Text.Stops isNumeric (lead ++ first :: rest) := by
  cases lead with
  | nil => exact Text.stops_cons.mpr other
  | cons c lead => exact Text.stops_cons.mpr (not_isNumeric_of_isSpace (blank c List.mem_cons_self))

section Sequences

variable {α : Type} {reader : Reader α} {closing : Char} {gap last rest : List Char} {room : Nat}

theorem items?_closing {cs : List Char} {a : α} (bracket : IsClosing closing) (blank : Blank last)
    (reads : reader cs = some (a, last ++ closing :: rest)) :
    items? closing reader (room + 1) cs = some ([a], rest) := by
  rw [items?, reads]
  simp only [Option.bind_eq_bind, Option.bind_some, skip_append blank (closing_other bracket).1, if_true]

theorem items?_comma {cs next : List Char} {a : α} {all : List α}
    (bracket : IsClosing closing) (reads : reader cs = some (a, ',' :: next))
    (others : items? closing reader room next = some (all, rest)) :
    items? closing reader (room + 1) cs = some (a :: all, rest) := by
  have comma : skip (',' :: next) = ',' :: next := List.dropWhile_cons_of_neg (by decide)
  rw [items?, reads]
  simp only [Option.bind_eq_bind, Option.bind_some, comma, (closing_other bracket).2.1.symm, others,
    if_false, if_true]
  rfl

variable {all : List α} {texts : List (List Char)}

theorem items?_intercalate (bracket : IsClosing closing) (blankGap : Blank gap) (blankLast : Blank last)
    (shown : List.Forall₂ (Shows reader) all texts) (nonempty : texts ≠ [])
    (enough : texts.length ≤ room) {lead : List Char} (blankLead : Blank lead) :
    items? closing reader room
      (lead ++ (List.intercalate (',' :: gap) texts ++ (last ++ closing :: rest))) = some (all, rest) := by
  induction shown generalizing room lead with
  | nil => contradiction
  | @cons a text all texts first others ih =>
      cases room with
      | zero => simp at enough
      | succ room =>
          cases texts with
          | nil =>
              cases others
              rw [List.intercalate_singleton]
              have ends := stops_blank blankLast (closing_other bracket).2.2 rest
              exact items?_closing bracket blankLast (first.reads lead _ blankLead ends)
          | cons next texts =>
              have rests := ih (by simp) (Nat.le_of_succ_le_succ enough) blankGap
              rw [List.intercalate_cons_cons, List.append_assoc, List.append_assoc]
              exact items?_comma bracket (first.reads lead _ blankLead (Text.stops_cons.mpr rfl)) rests

theorem exists_intercalate_cons (sep text : List Char) (texts : List (List Char)) :
    ∃ rest, List.intercalate sep (text :: texts) = text ++ rest := by
  cases texts with
  | nil => exact ⟨[], by rw [List.intercalate_singleton, List.append_nil]⟩
  | cons next texts => exact ⟨_, by rw [List.intercalate_cons_cons, List.append_assoc]⟩

theorem expect?_intercalate (bracket : IsClosing closing)
    (shown : List.Forall₂ (Shows reader) all texts) (nonempty : texts ≠ []) {lead : List Char}
    (blankLead : Blank lead) (sep rest : List Char) :
    expect? closing (lead ++ (List.intercalate sep texts ++ rest)) = none := by
  cases shown with
  | nil => contradiction
  | @cons _ text _ texts first _ =>
      obtain ⟨c, cs, split, other, square, curly⟩ := first.opens
      obtain ⟨later, whole⟩ := exists_intercalate_cons sep text texts
      have differs : c ≠ closing := by
        rcases bracket with rfl | rfl
        · exact square
        · exact curly
      rw [whole, split, List.cons_append, List.cons_append, expect?_append blankLead other, if_neg differs]

theorem length_le_of_mem_intercalate (sep : List Char) {text : List Char} (member : text ∈ texts) :
    text.length ≤ (List.intercalate sep texts).length := by
  induction texts with
  | nil => simp at member
  | cons first texts ih =>
      cases texts with
      | nil => simp_all
      | cons next texts =>
          rw [List.intercalate_cons_cons, List.length_append, List.length_append]
          rcases List.mem_cons.mp member with rfl | later
          · omega
          · have := ih later
            omega

theorem length_le_intercalate {sep : List Char} (nonempty : sep ≠ []) :
    texts.length ≤ (List.intercalate sep texts).length + 1 := by
  have separated := List.length_pos_iff.mpr nonempty
  induction texts with
  | nil => simp
  | cons first texts ih =>
      cases texts with
      | nil => simp
      | cons next texts =>
          rw [List.intercalate_cons_cons, List.length_append, List.length_append, List.length_cons]
          omega

theorem ascii_intercalate {sep : List Char} (separator : Ascii sep)
    (ascii : ∀ text ∈ texts, Ascii text) :
    Ascii (List.intercalate sep texts) := by
  induction texts with
  | nil => simp
  | cons first texts ih =>
      cases texts with
      | nil => simpa using ascii
      | cons next texts =>
          have others := ih fun text member => ascii text (List.mem_cons_of_mem _ member)
          intro c member
          rw [List.intercalate_cons_cons, List.mem_append, List.mem_append] at member
          rcases member with (own | between) | later
          · exact ascii first List.mem_cons_self c own
          · exact separator c between
          · exact others c later

end Sequences

theorem toNat_lt_of_isSpace {c : Char} (blank : isSpace c = true) : c.toNat < 128 := by
  simp only [isSpace, Bool.or_eq_true, decide_eq_true_eq] at blank
  rcases blank with ((rfl | rfl) | rfl) | rfl <;> decide

theorem isSpace_newline (indent : Indent) (level : Nat) :
    Blank (indent.newline level).toList := by
  cases indent with
  | none => simp [Indent.newline]
  | some width =>
      intro c member
      simp only [Indent.newline, String.toList_append, String.toList_ofList, List.mem_append,
        List.mem_replicate] at member
      rcases member with feed | ⟨_, rfl⟩
      · rw [List.mem_singleton.mp feed]
        rfl
      · rfl

theorem exists_separator (indent : Indent) (level : Nat) :
    ∃ gap, Blank gap ∧ (indent.separator level).toList = ',' :: gap := by
  cases indent with
  | none => exact ⟨[' '], by simp [isSpace], by simp [Indent.separator]⟩
  | some width =>
      refine ⟨(Indent.newline (some width) level).toList, isSpace_newline _ _, ?_⟩
      rw [Indent.separator, String.toList_append]
      rfl

section Enclosed

variable {α : Type} {reader : Reader α} {closing : Char} {texts : List String} {all : List α}

theorem exists_enclose (indent : Indent) (level : Nat) (opening closing : Char)
    (nonempty : texts ≠ []) :
    ∃ lead gap last, Blank lead ∧ Blank gap ∧ Blank last ∧
      (enclose indent level (String.singleton opening) (String.singleton closing) texts).toList =
        opening :: (lead ++ (List.intercalate (',' :: gap) (texts.map String.toList) ++
          (last ++ [closing]))) := by
  obtain ⟨gap, blank, separated⟩ := exists_separator indent (level + 1)
  refine ⟨_, gap, _, isSpace_newline indent (level + 1), blank, isSpace_newline indent level, ?_⟩
  rw [enclose, if_neg (by simpa using nonempty)]
  simp [String.toList_intercalate, separated]

theorem length_lt_enclose (indent : Indent) (level : Nat) (opening closing : Char) {room : Nat}
    (enough : (enclose indent level (String.singleton opening) (String.singleton closing) texts).length <
      room + 1) :
    texts.length ≤ room ∧ ∀ text ∈ texts, text.length < room := by
  by_cases empty : texts = []
  · simp [empty]
  · obtain ⟨lead, gap, last, _, _, _, whole⟩ := exists_enclose indent level opening closing empty
    rw [← String.length_toList, whole] at enough
    simp only [List.length_cons, List.length_append, List.length_nil] at enough
    have count : (texts.map String.toList).length ≤
        (List.intercalate (',' :: gap) (texts.map String.toList)).length + 1 :=
      length_le_intercalate (by simp)
    rw [List.length_map] at count
    refine ⟨by omega, fun text member => ?_⟩
    have size := length_le_of_mem_intercalate (',' :: gap) (List.mem_map_of_mem (f := String.toList) member)
    rw [String.length_toList] at size
    omega

theorem ascii_of_shows {texts : List (List Char)} (shown : List.Forall₂ (Shows reader) all texts) :
    ∀ text ∈ texts, Ascii text := by
  induction shown with
  | nil => simp
  | cons first others ih => exact List.forall_mem_cons.mpr ⟨first.ascii, ih⟩

theorem enclosed?_enclose (indent : Indent) (level : Nat) (opening : Char)
    (bracket : IsClosing closing)
    (shown : List.Forall₂ (fun a text => Shows reader a text.toList) all texts) {room : Nat}
    (enough : texts.length ≤ room) :
    ∃ body, (enclose indent level (String.singleton opening) (String.singleton closing) texts).toList =
        opening :: body ∧
      Ascii body ∧
      ∀ rest, enclosed? closing reader room (body ++ rest) = some (all, rest) := by
  obtain ⟨closes, _, _⟩ := closing_other bracket
  have small : closing.toNat < 128 := by
    rcases bracket with rfl | rfl <;> decide
  by_cases empty : texts = []
  · subst empty
    cases shown
    refine ⟨[closing], by simp [enclose], by simpa using small, fun rest => ?_⟩
    rw [enclosed?, expect?, List.singleton_append, skip, List.dropWhile_cons_of_neg (by simp [closes])]
    simp
  · obtain ⟨lead, gap, last, blankLead, blankGap, blankLast, whole⟩ :=
      exists_enclose indent level opening closing empty
    have listed : List.Forall₂ (Shows reader) all (texts.map String.toList) :=
      List.forall₂_map_right_iff.mpr shown
    have comma : Ascii (',' :: gap) :=
      List.forall_mem_cons.mpr ⟨by decide, fun c member => toNat_lt_of_isSpace (blankGap c member)⟩
    refine ⟨_, whole, ?_, fun rest => ?_⟩
    · simp only [List.forall_mem_append, List.forall_mem_singleton]
      exact ⟨fun c member => toNat_lt_of_isSpace (blankLead c member),
        ascii_intercalate comma (ascii_of_shows listed),
        fun c member => toNat_lt_of_isSpace (blankLast c member), small⟩
    · have items : items? closing reader room (lead ++ (List.intercalate (',' :: gap)
          (texts.map String.toList) ++ (last ++ closing :: rest))) = some (all, rest) :=
        items?_intercalate bracket blankGap blankLast listed (by simpa using empty)
          (by simpa using enough) blankLead
      have goesOn := expect?_intercalate bracket listed (by simpa using empty) blankLead (',' :: gap)
        (last ++ closing :: rest)
      simp only [List.append_assoc, List.singleton_append, enclosed?, items, goesOn]
      rfl

end Enclosed

section Values

variable (read : List Char → Float) (room : Nat)

theorem shows_string (s : String) : Shows (value? read (room + 1)) (string s) (stringText s).toList where
  ascii := ascii_stringText s
  opens := by
    obtain ⟨quoted, text, _⟩ := string?_stringText s []
    exact ⟨'"', quoted, text, by decide, by decide, by decide⟩
  reads := by
    intro lead rest blank _
    obtain ⟨quoted, text, found⟩ := string?_stringText s rest
    rw [text, List.cons_append, value?, skip_append blank (by decide)]
    simp only [if_true, found, Option.map_some]

theorem shows_keyword {word : String} {document : Json} (known : (word, document) ∈ keywords) :
    Shows (value? read (room + 1)) document word.toList := by
  simp only [keywords, List.mem_cons, Prod.mk.injEq, List.not_mem_nil, or_false] at known
  rcases known with ⟨rfl, rfl⟩ | ⟨rfl, rfl⟩ | ⟨rfl, rfl⟩
  all_goals
    refine ⟨by simp, ⟨_, _, String.toList_ofList, by decide, by decide, by decide⟩, ?_⟩
    intro lead rest blank _
    simp [value?, skip_append blank, keyword?, keywords, isSpace]

theorem first_of_numeral {c : Char} (first : c = '-' ∨ c.isDigit = true) :
    isSpace c = false ∧ ∀ other ∈ [']', '\x7d', '"', '[', '\x7b', 'n', 't', 'f'], c ≠ other := by
  rcases first with rfl | digit
  · exact ⟨rfl, by simp⟩
  · have spaces : ∀ other ∈ [' ', '\n', '\r', '\t', ']', '\x7d', '"', '[', '\x7b', 'n', 't', 'f'],
        c ≠ other := by
      intro other member same
      rw [same] at digit
      simp only [List.mem_cons, List.not_mem_nil, or_false] at member
      rcases member with rfl | rfl | rfl | rfl | rfl | rfl | rfl | rfl | rfl | rfl | rfl | rfl
      all_goals cases digit
    simp_all [isSpace]

theorem exists_first (n : Numeral) :
    ∃ first rest, n.text = first :: rest ∧ (first = '-' ∨ first.isDigit = true) := by
  obtain ⟨first, run, split, digits, _⟩ := exists_whole n
  unfold Numeral.text
  cases n.negative with
  | true => exact ⟨'-', _, rfl, .inl rfl⟩
  | false => exact ⟨first, _, by simp [split]; rfl, .inr (digits first (by simp [split]))⟩

theorem toNat_lt_of_isDigit {c : Char} (digit : c.isDigit = true) : c.toNat < 128 := by
  have high := (Text.bounds_of_isAsciiDigit digit).2
  omega

theorem ascii_numeral (n : Numeral) : Ascii n.text := by
  obtain ⟨_, _, _, digits, _⟩ := exists_whole n
  have fraction : Ascii n.fraction := by
    unfold Numeral.fraction
    split
    · simp
    · exact List.forall_mem_cons.mpr ⟨by decide, fun c member => toNat_lt_of_isDigit (n.placed c member)⟩
  have exponent : Ascii n.exponent := by
    rcases n.raised with none | ⟨sign, run, raised, signs, _, all⟩
    · simp [none]
    · have signed : sign.toNat < 128 := by
        rcases signs with rfl | rfl <;> decide
      rw [raised]
      simp only [List.forall_mem_cons]
      exact ⟨by decide, signed, fun c member => toNat_lt_of_isDigit (all c member)⟩
  unfold Numeral.text
  simp only [List.forall_mem_append]
  refine ⟨⟨⟨?_, fun c member => toNat_lt_of_isDigit (digits c member)⟩, fraction⟩, exponent⟩
  split <;> simp

theorem shows_numeral (n : Numeral) :
    Shows (value? read (room + 1)) (number (numberOf read n)) n.text := by
  obtain ⟨first, behind, text, numeric⟩ := exists_first n
  obtain ⟨space, others⟩ := first_of_numeral numeric
  simp only [List.forall_mem_cons, List.not_mem_nil, false_imp_iff, implies_true, and_true] at others
  obtain ⟨square, curly, quote, opens, braces, noNull, noTrue, noFalse⟩ := others
  refine ⟨ascii_numeral n, ⟨first, behind, text, space, square, curly⟩, ?_⟩
  intro lead rest blank stop
  have found := number?_text read n stop
  have noKeyword : keyword? (first :: (behind ++ rest)) = none := by
    simp [keyword?, keywords, noNull.symm, noTrue.symm, noFalse.symm]
  rw [text, List.cons_append] at found
  rw [text, List.cons_append, value?, skip_append blank space]
  simp only [if_neg quote, if_neg opens, if_neg braces, noKeyword, found]
  rfl

theorem numberOf_ofInt (n : Int) : numberOf read (Numeral.ofInt n) = .int n := by
  have whole : Nat.ofDigitChars 10 (Nat.toDigits 10 n.natAbs) 0 = n.natAbs := Nat.ofDigitChars_ten_toDigits
  have integer : (Numeral.ofInt n).isInteger = true := rfl
  rw [numberOf, integer, if_pos rfl]
  simp only [Numeral.ofInt, whole, decide_eq_true_eq]
  split
  · rw [Int.ofNat_natAbs_of_nonpos (by omega), Int.neg_neg]
  · rw [Int.natAbs_of_nonneg (by omega)]

theorem exists_shows_number {n : Number} (finite : n.exact.isFinite = true)
    (short : ¬ (Value.number n).IsLong)
    (reads : ∀ x, n = .float x → read (Binary64.ofFloat x).text.toList = x) :
    ∃ text, n.text = .ok text ∧ ∀ room, Shows (value? read (room + 1)) (number n) text.toList := by
  cases n with
  | int n =>
      refine ⟨toString n, ?_, fun room => ?_⟩
      · rw [Number.text, integerText, if_neg (mt Value.isLong_int_iff.mpr short)]
      · have shows := shows_numeral read room (Numeral.ofInt n)
        rwa [numberOf_ofInt, Numeral.text_ofInt] at shows
  | float x =>
      refine ⟨_, rfl, fun room => ?_⟩
      cases exact : Binary64.ofFloat x with
      | nan => simp [Number.exact, exact, Binary64.isFinite] at finite
      | infinite negative => simp [Number.exact, exact, Binary64.isFinite] at finite
      | finite negative mantissa exponent =>
          obtain ⟨n, point, text, _⟩ := Binary64.exists_numeral_text exact
          have shows := shows_numeral read room n
          rw [numberOf, point, if_neg Bool.false_ne_true, text, reads x rfl] at shows
          rwa [exact] at shows

theorem shows_array (indent : Indent) (level : Nat) {items : List Json} {texts : List String}
    (shown : List.Forall₂ (fun item text => Shows (value? read room) item text.toList) items texts)
    (enough : texts.length ≤ room) :
    Shows (value? read (room + 1)) (array items) (enclose indent level "[" "]" texts).toList := by
  obtain ⟨body, whole, ascii, found⟩ := enclosed?_enclose indent level '[' (.inl rfl) shown enough
  have text : (enclose indent level "[" "]" texts).toList = '[' :: body := whole
  rw [text]
  refine ⟨List.forall_mem_cons.mpr ⟨by decide, ascii⟩,
    ⟨'[', body, rfl, by decide, by decide, by decide⟩, ?_⟩
  intro lead rest blank _
  rw [List.cons_append, value?, skip_append blank (by decide)]
  simp only [Char.reduceEq, if_false, if_true, found rest, Option.map_some]

def memberText (key text : String) : String := stringText key ++ ": " ++ text

theorem shows_member {reader : Reader Json} {key text : String} {item : Json}
    (shown : Shows reader item text.toList) :
    Shows (member? reader) (key, item) (memberText key text).toList := by
  have whole : (memberText key text).toList = (stringText key).toList ++ (':' :: ' ' :: text.toList) := by
    simp [memberText]
  rw [whole]
  refine ⟨?_, ?_, ?_⟩
  · simp only [List.forall_mem_append, List.forall_mem_cons]
    exact ⟨ascii_stringText key, by decide, by decide, shown.ascii⟩
  · obtain ⟨quoted, split, _⟩ := string?_stringText key []
    exact ⟨'"', _, by rw [split]; rfl, by decide, by decide, by decide⟩
  · intro lead rest blank stop
    obtain ⟨quoted, split, found⟩ := string?_stringText key (':' :: ' ' :: (text.toList ++ rest))
    have colon : expect? ':' (':' :: ' ' :: (text.toList ++ rest)) =
        some (' ' :: (text.toList ++ rest)) := rfl
    have value := shown.reads [' '] rest (by simp [isSpace]) stop
    rw [List.singleton_append] at value
    rw [split, List.append_assoc, List.cons_append, member?, expect?_append blank (by decide), if_pos rfl]
    simp only [List.cons_append, Option.bind_eq_bind, Option.bind_some, found, colon, value]
    rfl

theorem shows_object (indent : Indent) (level : Nat) {members : List (String × Json)} {texts : List String}
    (distinct : (members.map Prod.fst).Nodup)
    (shown : List.Forall₂ (fun member text => Shows (member? (value? read room)) member text.toList)
      members texts)
    (enough : texts.length ≤ room) :
    Shows (value? read (room + 1)) (object members) (enclose indent level "\x7b" "\x7d" texts).toList := by
  obtain ⟨body, whole, ascii, found⟩ := enclosed?_enclose indent level '\x7b' (.inr rfl) shown enough
  have text : (enclose indent level "\x7b" "\x7d" texts).toList = '\x7b' :: body := whole
  rw [text]
  refine ⟨List.forall_mem_cons.mpr ⟨by decide, ascii⟩,
    ⟨'\x7b', body, rfl, by decide, by decide, by decide⟩, ?_⟩
  intro lead rest blank _
  rw [List.cons_append, value?, skip_append blank (by decide)]
  simp only [Char.reduceEq, if_false, if_true, found rest, Option.bind_eq_bind, Option.bind_some,
    if_pos distinct]
  rfl

end Values

def Settles {β : Type} (long : Prop) (good : β → Prop) (result : Except Fault β) : Prop :=
  long ∧ result = .error .integerTooLong ∨ ¬ long ∧ ∃ b, result = .ok b ∧ good b

theorem Settles.map {β γ : Type} {long more : Prop} {good : β → Prop} {better : γ → Prop}
    {result : Except Fault β} (settles : Settles long good result) {f : β → γ} (same : more ↔ long)
    (keeps : ∀ b, good b → better (f b)) : Settles more better (result.map f) := by
  rcases settles with ⟨isLong, failed⟩ | ⟨short, b, came, isGood⟩
  · exact .inl ⟨same.mpr isLong, by rw [failed]; rfl⟩
  · exact .inr ⟨mt same.mp short, f b, by rw [came]; rfl, keeps b isGood⟩

theorem settles_mapM {α β : Type} {f : α → Except Fault β} {long : α → Prop} {good : α → β → Prop}
    {all : List α} (each : ∀ a ∈ all, Settles (long a) (good a) (f a)) :
    Settles (∃ a ∈ all, long a) (List.Forall₂ good all) (all.mapM f) := by
  induction all with
  | nil => exact .inr ⟨by simp, [], rfl, .nil⟩
  | cons a all ih =>
      simp only [List.forall_mem_cons] at each
      rw [List.mapM_cons]
      rcases each.1 with ⟨isLong, failed⟩ | ⟨short, b, came, isGood⟩
      · exact .inl ⟨⟨a, List.mem_cons_self, isLong⟩, by rw [failed]; rfl⟩
      · rw [came]
        rcases ih each.2 with ⟨⟨other, member, isLong⟩, failed⟩ | ⟨others, rest, cameRest, areGood⟩
        · exact .inl ⟨⟨other, List.mem_cons_of_mem _ member, isLong⟩, by rw [failed]; rfl⟩
        · refine .inr ⟨?_, b :: rest, by rw [cameRest]; rfl, .cons isGood areGood⟩
          simpa [short] using others

theorem renderItems_eq (calls : Nat) (indent : Indent) (level : Nat) (items : List Json) :
    renderItems calls indent level items = items.mapM (renderAt calls indent level) := by
  induction items with
  | nil => rfl
  | cons item items ih => rw [renderItems, ih, List.mapM_cons]

theorem renderMembers_eq (calls : Nat) (indent : Indent) (level : Nat) (members : List (String × Json)) :
    renderMembers calls indent level members =
      members.mapM fun member => (renderAt calls indent level member.2).map (memberText member.1) := by
  induction members with
  | nil => rfl
  | cons member members ih =>
      rw [renderMembers, ih, List.mapM_cons]
      cases renderAt calls indent level member.2 <;> rfl

theorem shows_of_room {α : Type} {reader : Nat → Reader α} {all : List α} {texts : List String}
    {room : Nat}
    (shown : List.Forall₂
      (fun a text => ∀ room, text.length < room → Shows (reader room) a text.toList) all texts)
    (enough : ∀ text ∈ texts, text.length < room) :
    List.Forall₂ (fun a text => Shows (reader room) a text.toList) all texts := by
  induction shown with
  | nil => exact .nil
  | cons first _ ih =>
      simp only [List.forall_mem_cons] at enough
      exact .cons (first room enough.1) (ih enough.2)

theorem settles_ok {document : Json} {read : List Char → Float} {text : String}
    (short : ¬ document.HoldsLong) (shown : ∀ room, Shows (value? read (room + 1)) document text.toList) :
    Settles document.HoldsLong
      (fun text => ∀ room, text.length < room → Shows (value? read room) document text.toList)
      (.ok text) := by
  refine .inr ⟨short, text, rfl, fun room enough => ?_⟩
  cases room with
  | zero => omega
  | succ room => exact shown room

/-- A regular document that there are calls enough for has a text unless it holds an integer that is too long,
and is read back from it. -/
theorem settles_renderAt {document : Json} (regular : document.Regular) (read : List Char → Float)
    (reads : ∀ x, document.Holds (.float x) → read (Binary64.ofFloat x).text.toList = x)
    (indent : Indent) {calls depth : Nat} (nested : document.Nested depth) {level : Nat}
    (within : level + depth ≤ calls) :
    Settles document.HoldsLong
      (fun text => ∀ room, text.length < room → Shows (value? read room) document text.toList)
      (document.renderAt calls indent level) := by
  induction regular generalizing level depth with
  | null => exact settles_ok (by simp [HoldsLong]) fun room => shows_keyword read room (by simp [keywords])
  | bool b =>
      refine settles_ok (by simp [HoldsLong]) fun room => shows_keyword read room ?_
      cases b <;> simp [keywords]
  | string s => exact settles_ok (by simp [HoldsLong]) fun room => shows_string read room s
  | @number n finite =>
      by_cases long : (Value.number n).IsLong
      · exact .inl ⟨⟨n, .here, long⟩, Value.text_of_isLong long⟩
      · obtain ⟨text, written, shown⟩ := exists_shows_number read finite long fun x same =>
          reads x (same ▸ .here)
        rw [renderAt, written]
        exact settles_ok (by simpa [HoldsLong] using long) shown
  | @array items _ ih =>
      obtain ⟨depth, rfl, inner⟩ := nested.exists_array
      have each := settles_mapM fun item member => ih item member
        (fun x holds => reads x (.item member holds)) (inner item member)
        (show level + 1 + depth ≤ calls by omega)
      rw [renderAt, if_pos (by omega), renderItems_eq]
      refine each.map holdsLong_array fun texts shown room enough => ?_
      cases room with
      | zero => omega
      | succ room =>
          obtain ⟨count, sizes⟩ := length_lt_enclose indent level '[' ']' enough
          exact shows_array read room indent level (shows_of_room shown sizes) count
  | @object members distinct _ ih =>
      obtain ⟨depth, rfl, inner⟩ := nested.exists_object
      have each (member) (present : member ∈ members) : Settles member.2.HoldsLong
          (fun text => ∀ room, text.length < room → Shows (member? (value? read room)) member text.toList)
          ((renderAt calls indent (level + 1) member.2).map (memberText member.1)) := by
        refine (ih member present (fun x holds => reads x (.member present holds)) (inner member present)
          (show level + 1 + depth ≤ calls by omega)).map Iff.rfl fun text shown room enough => ?_
        simp only [memberText, String.length_append] at enough
        exact shows_member (shown room (by omega))
      rw [renderAt, if_pos (by omega), renderMembers_eq]
      refine (settles_mapM each).map holdsLong_object fun texts shown room enough => ?_
      cases room with
      | zero => omega
      | succ room =>
          obtain ⟨count, sizes⟩ := length_lt_enclose indent level '\x7b' '\x7d' enough
          exact shows_object read room indent level distinct (shows_of_room shown sizes) count

theorem settles_render {document : Json} (regular : document.Regular) (read : List Char → Float)
    (reads : ∀ x, document.Holds (.float x) → read (Binary64.ofFloat x).text.toList = x)
    {calls depth : Nat} (nested : document.Nested depth) (within : depth ≤ calls) (indent : Indent) :
    Settles document.HoldsLong
      (fun text => Ascii text.toList ∧ decode? read text = some document)
      (document.render calls indent) := by
  have start : 0 + depth ≤ calls := by omega
  rcases settles_renderAt regular read reads indent nested start with
    long | ⟨short, text, written, shown⟩
  · exact .inl long
  · have shows := shown (text.length + 1) (Nat.lt_succ_self _)
    have found := shows.reads [] [] (by simp) (Text.stops_nil _)
    rw [List.nil_append, List.append_nil] at found
    refine .inr ⟨short, text, written, shows.ascii, ?_⟩
    rw [decode?, found]
    rfl

end LineCalc.Json
