import Mathlib.Data.List.Forall2
import LineCalc.Proofs.Basic
import LineCalc.Proofs.Settings.Section
import LineCalc.Proofs.Value.Order

/-! The documents that settings are read from.

A section gives settings if every key in it is that of a setting and has a value that this setting can
have: a text, a truth value or one of the ways to write it, the name of a level in any case. A setting
whose key is missing has its default. It does not matter whether the section is the whole document or
stands under its key, and the settings that are read from it are read from their own mapping as well. -/

namespace LineCalc

theorem Number.compare?_eq_iff {n : Number} {k : Int} :
    n.compare? (.int k) = some .eq ↔ n.place? = some (WithBotTop.coe (k : ℚ)) := by
  have right : (Number.int k).exact.place? = some (WithBotTop.coe (k : ℚ)) := place?_exact (.int k)
  rw [← place?_exact, compare?]
  cases left : n.exact.place? with
  | none => simp [Binary64.compare?_eq_none (.inl left)]
  | some x =>
      obtain ⟨order, compared, compares⟩ := Binary64.exists_compares left right
      rw [compared, Option.some.injEq, Option.some.injEq]
      exact compares.eq_eq

namespace Settings

open Document (get?)

def Spells (word small : String) : Prop :=
  List.Forall₂ (fun c l => c = l ∨ c = l.toUpper) word.toList small.toList

/-- A document stands for a truth value: it is one, or zero or one, or one of the words for it. -/
inductive Means : Document → Bool → Prop
  | bool (b : Bool) : Means (.scalar (.bool b)) b
  | number {n : Number} {b : Bool} (equal : n.place? = some (WithBotTop.coe (b.toInt : ℚ))) :
      Means (.scalar (.number n)) b
  | word {s small : String} {b : Bool} (listed : (small, b) ∈ truthWords) (spells : Spells s small) :
      Means (.text s) b

/-- A text is the name of a level in any case. A dotless i passes for a small one. -/
def Names (name : String) (level : LogLevel) : Prop :=
  List.Forall₂ (fun c u => c = u ∨ c = u.toLower ∨ (c = 'ı' ∧ u = 'I')) name.toList level.name.toList

def Takes (settings : Settings) (key : String) (document : Document) : Prop :=
  match key with
  | "prompt" => document = .text settings.prompt
  | "result_prefix" => document = .text settings.resultPrefix
  | "farewell" => document = .text settings.farewell
  | "show_tokens" => Means document settings.showTokens
  | "show_tree" => Means document settings.showTree
  | "log_level" => ∃ name, document = .text name ∧ Names name settings.logLevel
  | _ => False

/-- Settings are what a section says, with the default under every key that is missing. -/
def Fits (entries : List (Scalar × Document)) (settings : Settings) : Prop :=
  ∀ key document, (get? key entries).or (default.entries.lookup key) = some document →
    settings.Takes key document

def Valid (entries : List (Scalar × Document)) : Prop :=
  ∀ key document, get? key entries = some document → ∃ settings : Settings, settings.Takes key document

theorem map_eq_iff_forall₂ {f : Char → Char} {related : Char → Char → Prop} {s t : String}
    (letters : ∀ d ∈ t.toList, ∀ c, f c = d ↔ related c d) :
    s.map f = t ↔ List.Forall₂ related s.toList t.toList := by
  rw [← String.toList_inj, String.toList_map, ← List.forall₂_eq_eq_eq, List.forall₂_map_left_iff,
    List.forall₂_iff_zip, List.forall₂_iff_zip]
  refine and_congr_right fun _ => forall_congr' fun c => forall_congr' fun d => imp_congr_right ?_
  intro member
  exact letters d (List.of_mem_zip member).2 c

section Letters

variable (c : Char)

theorem isUpper_iff : c.isUpper = true ↔ 65 ≤ c.toNat ∧ c.toNat ≤ 90 := decide_eq_true_iff

theorem isLower_iff : c.isLower = true ↔ 97 ≤ c.toNat ∧ c.toNat ≤ 122 := by
  have bounds : c.isLower = (decide (c.val ≥ 'a'.val) && decide (c.val ≤ 'z'.val)) := rfl
  rw [bounds, Bool.and_eq_true, decide_eq_true_iff, decide_eq_true_iff]
  rfl

theorem toNat_toLower :
    c.toLower.toNat = if 65 ≤ c.toNat ∧ c.toNat ≤ 90 then c.toNat + 32 else c.toNat := by
  by_cases capital : c.val ≥ 'A'.val ∧ c.val ≤ 'Z'.val
  · have range : 65 ≤ c.toNat ∧ c.toNat ≤ 90 := capital
    have lower : c.toLower.toNat = (c.toNat + 32) % 2 ^ 32 :=
      (congrArg Char.toNat (dif_pos capital)).trans (UInt32.toNat_add _ _)
    rw [lower, if_pos range]
    omega
  · have range : ¬ (65 ≤ c.toNat ∧ c.toNat ≤ 90) := capital
    rw [if_neg range]
    exact congrArg Char.toNat (dif_neg capital)

theorem toNat_toUpper :
    c.toUpper.toNat = if 97 ≤ c.toNat ∧ c.toNat ≤ 122 then c.toNat - 32 else c.toNat := by
  by_cases small : 'a'.val ≤ c.val ∧ c.val ≤ 'z'.val
  · have range : 97 ≤ c.toNat ∧ c.toNat ≤ 122 := small
    -- The distance to the capital letter is negative and wraps around.
    have upper : c.toUpper.toNat = (c.toNat + (2 ^ 32 - 32)) % 2 ^ 32 :=
      (congrArg Char.toNat (dif_pos small)).trans (UInt32.toNat_add _ _)
    rw [upper, if_pos range]
    omega
  · have range : ¬ (97 ≤ c.toNat ∧ c.toNat ≤ 122) := small
    rw [if_neg range]
    exact congrArg Char.toNat (dif_neg small)

end Letters

theorem toLower_eq_iff {c l : Char} (small : ¬ l.isUpper = true) :
    c.toLower = l ↔ c = l ∨ c = l.toUpper := by
  rw [isUpper_iff] at small
  rw [← Char.toNat_inj, ← Char.toNat_inj, ← Char.toNat_inj, toNat_toLower, toNat_toUpper]
  split <;> split <;> omega

theorem toUpper_eq_iff {c u : Char} (capital : ¬ u.isLower = true) :
    c.toUpper = u ↔ c = u ∨ c = u.toLower := by
  rw [isLower_iff] at capital
  rw [← Char.toNat_inj, ← Char.toNat_inj, ← Char.toNat_inj, toNat_toUpper, toNat_toLower]
  split <;> split <;> omega

theorem readText_eq_ok_iff {document : Document} {text : String} :
    readText document = .ok text ↔ document = .text text := by
  cases document with
  | scalar scalar => cases scalar <;> simp [readText, Document.text]
  | list | map => simp [readText, Document.text]

theorem lookup_truthWords_iff {small : String} {b : Bool} :
    truthWords.lookup small = some b ↔ (small, b) ∈ truthWords := by
  have distinct : ∀ entry ∈ truthWords, truthWords.lookup entry.1 = some entry.2 := by decide
  exact ⟨mem_of_lookup, distinct (small, b)⟩

theorem spells_iff {word small : String} {b : Bool} (listed : (small, b) ∈ truthWords) :
    word.map Char.toLower = small ↔ Spells word small := by
  have letters : ∀ entry ∈ truthWords, (entry.1.toList.all fun l => !l.isUpper) = true := by decide
  apply map_eq_iff_forall₂
  intro l member c
  apply toLower_eq_iff
  simpa using List.all_eq_true.mp (letters (small, b) listed) l member

theorem readTruthValue_eq_ok_iff {document : Document} {b : Bool} :
    readTruthValue document = .ok b ↔ Means document b := by
  constructor
  · intro read
    cases document with
    | list | map => contradiction
    | scalar scalar =>
        cases scalar with
        | null | date => contradiction
        | bool truth =>
            cases read
            exact .bool b
        | number n =>
            simp only [readTruthValue] at read
            split_ifs at read with zero one
            · cases read
              exact .number (Number.compare?_eq_iff.mp zero)
            · cases read
              exact .number (Number.compare?_eq_iff.mp one)
        | text s =>
            cases found : truthWords.lookup (s.map Char.toLower) with
            | none => simp [readTruthValue, found] at read
            | some truth =>
                simp only [readTruthValue, found, Except.ok.injEq] at read
                subst read
                have listed := lookup_truthWords_iff.mp found
                exact .word listed ((spells_iff listed).mp rfl)
  · intro means
    cases means with
    | bool => rfl
    | @number n _ equal =>
        have compared := Number.compare?_eq_iff.mpr equal
        cases b with
        | false => exact if_pos compared
        | true =>
            have other : ¬ n.compare? (.int 0) = some .eq := by
              rw [Number.compare?_eq_iff, equal]
              decide
            exact (if_neg other).trans (if_pos compared)
    | word listed spells =>
        have same := (spells_iff listed).mpr spells
        simp only [Document.text, readTruthValue, same, lookup_truthWords_iff.mpr listed]

theorem ofName?_eq_some_iff {name : String} {level : LogLevel} :
    LogLevel.ofName? name = some level ↔ name = level.name := by
  constructor
  · intro found
    have same := List.find?_some found
    exact (of_decide_eq_true same).symm
  · rintro rfl
    exact LogLevel.ofName?_name level

theorem upperLevelChar_eq_iff {c u : Char} (capital : u.isUpper = true) :
    upperLevelChar c = u ↔ c = u ∨ c = u.toLower ∨ (c = 'ı' ∧ u = 'I') := by
  have large := (isUpper_iff u).mp capital
  by_cases dotless : c = 'ı'
  · -- The dotless i is neither a capital letter of ASCII nor the small form of one.
    have code : 'ı'.toNat = 305 := rfl
    have notCapital : 'ı' ≠ u := by
      rintro rfl
      omega
    have notSmall : 'ı' ≠ u.toLower := by
      intro same
      have equal := congrArg Char.toNat same
      rw [toNat_toLower, if_pos large] at equal
      omega
    rw [dotless]
    simp only [notCapital, notSmall, true_and, false_or]
    exact eq_comm
  · have other : ¬ c.toNat = 0x131 := fun same => dotless (Char.toNat_inj.mp same)
    have notLower : ¬ u.isLower = true := by
      rw [isLower_iff]
      omega
    rw [upperLevelChar, if_neg other, toUpper_eq_iff notLower]
    simp only [dotless, false_and, or_false]

theorem map_upperLevelChar_iff {name : String} {level : LogLevel} :
    name.map upperLevelChar = level.name ↔ Names name level := by
  have letters : (level.name.toList.all Char.isUpper) = true := by cases level <;> decide
  apply map_eq_iff_forall₂
  intro u member c
  exact upperLevelChar_eq_iff (List.all_eq_true.mp letters u member)

theorem readLevel_eq_ok_iff {document : Document} {level : LogLevel} :
    readLevel document = .ok level ↔ ∃ name, document = .text name ∧ Names name level := by
  simp only [← map_upperLevelChar_iff, ← ofName?_eq_some_iff]
  constructor
  · intro read
    cases document with
    | list | map => contradiction
    | scalar scalar =>
        cases scalar with
        | null | bool | number | date => contradiction
        | text name =>
            refine ⟨name, rfl, ?_⟩
            cases found : LogLevel.ofName? (name.map upperLevelChar) with
            | none => simp [readLevel, found] at read
            | some other =>
                simp only [readLevel, found, Except.ok.injEq] at read
                rw [read]
  · rintro ⟨name, rfl, found⟩
    simp only [Document.text, readLevel, found]

theorem field_eq_ok_iff {α : Type} {pairs : List (String × Document)} {key : String}
    {read : Document → Except ViolationKind α} {value usual : α} {document : Document}
    (own : read document = .ok usual) :
    field pairs key usual read = .ok value ↔
      ∀ given, (pairs.lookup key).or (some document) = some given → read given = .ok value := by
  unfold field
  cases pairs.lookup key with
  | none => simp [own]
  | some given => simp [mapError_eq_ok_iff]

theorem ofEntries_eq_ok_iff {pairs : List (String × Document)} {settings : Settings} :
    ofEntries pairs = .ok settings ↔
      (field pairs "prompt" default.prompt readText = .ok settings.prompt ∧
        field pairs "result_prefix" default.resultPrefix readText = .ok settings.resultPrefix ∧
        field pairs "farewell" default.farewell readText = .ok settings.farewell ∧
        field pairs "show_tokens" default.showTokens readTruthValue = .ok settings.showTokens ∧
        field pairs "show_tree" default.showTree readTruthValue = .ok settings.showTree ∧
        field pairs "log_level" default.logLevel readLevel = .ok settings.logLevel) ∧
      ∀ pair ∈ pairs, pair.1 ∈ keys := by
  have unknown : (pairs.filter fun pair => !keys.contains pair.1).map
      (fun pair => (⟨pair.1, .unknownKey⟩ : Violation)) = [] ↔ ∀ pair ∈ pairs, pair.1 ∈ keys := by
    simp
  constructor
  · intro given
    unfold ofEntries at given
    simp only at given
    split at given
    · next empty prompt resultPrefix farewell showTokens showTree logLevel =>
      cases given
      exact ⟨⟨prompt, resultPrefix, farewell, showTokens, showTree, logLevel⟩,
        unknown.mp (List.append_eq_nil_iff.mp empty).2⟩
    · contradiction
  · rintro ⟨⟨prompt, resultPrefix, farewell, showTokens, showTree, logLevel⟩, known⟩
    simp only [ofEntries, prompt, resultPrefix, farewell, showTokens, showTree, logLevel, unknown.mpr known,
      fieldViolation, List.append_nil]

section Keys

variable {settings : Settings} {key : String} {document : Document}

theorem mem_keys_of_takes (takes : settings.Takes key document) : key ∈ keys := by
  unfold Takes at takes
  split at takes <;> simp_all [keys]

theorem lookup_entries_eq_none_iff : settings.entries.lookup key = none ↔ key ∉ keys := by
  have own : keys = settings.entries.map Prod.fst := rfl
  rw [own, List.lookup_eq_none_iff, List.mem_map, not_exists]
  refine forall_congr' fun entry => ?_
  rw [bne_iff_ne, not_and, ne_comm]

theorem takes_of_fields (given : String → Option Document)
    (known : ∀ key document, given key = some document → key ∈ keys)
    (prompt : ∀ document, given "prompt" = some document → document = .text settings.prompt)
    (resultPrefix : ∀ document, given "result_prefix" = some document →
      document = .text settings.resultPrefix)
    (farewell : ∀ document, given "farewell" = some document → document = .text settings.farewell)
    (showTokens : ∀ document, given "show_tokens" = some document → Means document settings.showTokens)
    (showTree : ∀ document, given "show_tree" = some document → Means document settings.showTree)
    (logLevel : ∀ document, given "log_level" = some document →
      ∃ name, document = .text name ∧ Names name settings.logLevel)
    (key : String) (document : Document) (found : given key = some document) :
    settings.Takes key document := by
  have member := known key document found
  simp only [keys, List.mem_cons, List.not_mem_nil, or_false] at member
  rcases member with rfl | rfl | rfl | rfl | rfl | rfl
  · exact prompt document found
  · exact resultPrefix document found
  · exact farewell document found
  · exact showTokens document found
  · exact showTree document found
  · exact logLevel document found

theorem takes_of_lookup_entries (found : settings.entries.lookup key = some document) :
    settings.Takes key document := by
  have text {t : String} {document : Document} (same : some (Document.text t) = some document) :
      document = .text t := (Option.some.inj same).symm
  have truth {b : Bool} {document : Document} (same : some (Document.scalar (.bool b)) = some document) :
      Means document b := Option.some.inj same ▸ .bool b
  refine takes_of_fields (settings.entries.lookup ·) ?_ (fun _ => text) (fun _ => text) (fun _ => text)
    (fun _ => truth) (fun _ => truth) (fun _ same => ⟨_, text same, ?_⟩) key document found
  · intro key document found
    by_contra unknown
    rw [lookup_entries_eq_none_iff.mpr unknown] at found
    contradiction
  · exact List.forall₂_same.mpr fun c _ => .inl rfl

end Keys

theorem ofEntries_eq_ok_iff_takes {pairs : List (String × Document)} {settings : Settings} :
    ofEntries pairs = .ok settings ↔
      ∀ key document, (pairs.lookup key).or (default.entries.lookup key) = some document →
        settings.Takes key document := by
  have text (t : String) : readText (.text t) = .ok t := rfl
  have truth (b : Bool) : readTruthValue (.scalar (.bool b)) = .ok b := rfl
  have level : readLevel (.text default.logLevel.name) = .ok default.logLevel := by decide +kernel
  rw [ofEntries_eq_ok_iff, field_eq_ok_iff (text default.prompt),
    field_eq_ok_iff (text default.resultPrefix), field_eq_ok_iff (text default.farewell),
    field_eq_ok_iff (truth default.showTokens), field_eq_ok_iff (truth default.showTree),
    field_eq_ok_iff level]
  simp only [readText_eq_ok_iff, readTruthValue_eq_ok_iff, readLevel_eq_ok_iff]
  constructor
  · rintro ⟨⟨prompt, resultPrefix, farewell, showTokens, showTree, logLevel⟩, known⟩
    refine takes_of_fields _ ?_ prompt resultPrefix farewell showTokens showTree logLevel
    intro key document found
    by_contra unknown
    rw [lookup_entries_eq_none_iff.mpr unknown, Option.or_none] at found
    exact unknown (known _ (mem_of_lookup found))
  · intro takes
    refine ⟨⟨takes "prompt", takes "result_prefix", takes "farewell", takes "show_tokens",
      takes "show_tree", takes "log_level"⟩, ?_⟩
    intro pair member
    obtain ⟨document, found⟩ : ∃ document, pairs.lookup pair.1 = some document := by
      apply Option.isSome_iff_exists.mp
      exact List.lookup_isSome_iff.mpr ⟨pair, member, beq_self_eq_true _⟩
    exact mem_keys_of_takes (takes pair.1 document (by rw [found, Option.some_or]))

section Sections

variable {entries : List (Scalar × Document)} {settings : Settings}

theorem lookup_textEntries? {pairs : List (String × Document)} (textual : textEntries? entries = some pairs)
    (key : String) : pairs.lookup key = get? key entries := by
  induction entries generalizing pairs with
  | nil =>
      cases textual
      rfl
  | cons entry rest ih =>
      obtain ⟨scalar, value⟩ := entry
      cases scalar with
      | null | bool | number | date => contradiction
      | text name =>
          obtain ⟨others, found, rfl⟩ := Option.map_eq_some_iff.mp textual
          rw [get?, List.lookup_cons, ih found]
          by_cases same : key = name
          · simp [same]
          · rw [beq_eq_false_iff_ne.mpr same]
            simp [Ne.symm same]

theorem ofSection_eq_ok_iff :
    ofSection entries = .ok settings ↔
      (∀ entry ∈ entries, ∃ key, entry.1 = .text key) ∧ Fits entries settings := by
  have textual : (∀ entry ∈ entries, ∃ key, entry.1 = .text key) ↔ textEntries? entries ≠ none := by
    rw [ne_eq, textEntries?_eq_none_iff]
    simp
  rw [textual, ofSection]
  cases found : textEntries? entries with
  | none => simp
  | some pairs =>
      simp only [mapError_eq_ok_iff, ofEntries_eq_ok_iff_takes, lookup_textEntries? found]
      simp [Fits]

/-- Settings fit a section if each value in it is one that its key can have: keys are read apart from
each other. -/
theorem exists_fits_iff : (∃ settings, Fits entries settings) ↔ Valid entries := by
  constructor
  · rintro ⟨settings, fits⟩ key document found
    exact ⟨settings, fits key document (by rw [found, Option.some_or])⟩
  · intro valid
    have each (key : String) : ∃ settings : Settings, ∀ document,
        (get? key entries).or (default.entries.lookup key) = some document →
          settings.Takes key document := by
      cases found : get? key entries with
      | none => exact ⟨default, fun document usual => takes_of_lookup_entries usual⟩
      | some given =>
          obtain ⟨settings, takes⟩ := valid key given found
          refine ⟨settings, ?_⟩
          rintro document same
          cases same
          exact takes
    obtain ⟨a, prompt⟩ := each "prompt"
    obtain ⟨b, resultPrefix⟩ := each "result_prefix"
    obtain ⟨c, farewell⟩ := each "farewell"
    obtain ⟨d, showTokens⟩ := each "show_tokens"
    obtain ⟨e, showTree⟩ := each "show_tree"
    obtain ⟨f, logLevel⟩ := each "log_level"
    refine ⟨⟨a.prompt, b.resultPrefix, c.farewell, d.showTokens, e.showTree, f.logLevel⟩, ?_⟩
    refine takes_of_fields _ ?_ prompt resultPrefix farewell showTokens showTree logLevel
    intro key document found
    obtain ⟨settings, takes⟩ := each key
    exact mem_keys_of_takes (takes document found)

end Sections

/-- A document whose section has texts for keys gives settings exactly if the section is valid, and then
those that fit the section. A document that holds nothing has an empty section, whether it is a mapping or
not. The user is told of any other document that it is refused. -/
theorem ofDocument_accepts_iff (document : Document)
    (keyed : ∀ entries, Section document entries → ∀ entry ∈ entries, ∃ key, entry.1 = .text key) :
    ((∃ settings, ofDocument document = .ok settings) ↔
      ∃ entries, Section document entries ∧ Valid entries) ∧
    (∀ settings, ofDocument document = .ok settings ↔
      ∃ entries, Section document entries ∧ Fits entries settings) ∧
    ((¬ ∃ entries, Section document entries ∧ Valid entries) →
      ∃ error, ofDocument document = .error error ∧ error.fault? = none) := by
  have fitting (settings : Settings) : ofDocument document = .ok settings ↔
      ∃ entries, Section document entries ∧ Fits entries settings := by
    constructor
    · intro given
      by_cases holds : ∃ entries, Section document entries
      · obtain ⟨entries, within⟩ := holds
        rw [ofDocument_of_section within] at given
        exact ⟨entries, within, (ofSection_eq_ok_iff.mp given).2⟩
      · rcases ofDocument_of_not_section (not_exists.mp holds) with refused | refused
        · rw [refused] at given
          contradiction
        · rw [refused] at given
          contradiction
    · rintro ⟨entries, within, fits⟩
      rw [ofDocument_of_section within]
      exact ofSection_eq_ok_iff.mpr ⟨keyed entries within, fits⟩
  have accepted : (∃ settings, ofDocument document = .ok settings) ↔
      ∃ entries, Section document entries ∧ Valid entries := by
    simp only [fitting, ← exists_fits_iff]
    constructor
    · rintro ⟨settings, entries, within, fits⟩
      exact ⟨entries, within, settings, fits⟩
    · rintro ⟨entries, within, settings, fits⟩
      exact ⟨settings, entries, within, fits⟩
  refine ⟨accepted, fitting, ?_⟩
  intro invalid
  cases result : ofDocument document with
  | ok settings => exact (invalid (accepted.mp ⟨settings, result⟩)).elim
  | error error =>
      refine ⟨error, rfl, Option.eq_none_iff_forall_ne_some.mpr ?_⟩
      intro fault escaped
      obtain ⟨_, entries, within, entry, member, other⟩ := fault?_ofDocument result escaped
      obtain ⟨key, text⟩ := keyed entries within entry member
      exact other key text

/-- A section may write a level with dotless letters and a truth value as the double `1.0`, and stand beside
a key that no setting has. A section that is null is refused. -/
theorem ofDocument_accepts_iff_nested :
    (∃ entries, Section (.map [(.text "interpreter", .map [(.text "log_level", .text "crıtıcaL"),
        (.text "show_tree", .scalar (.number (.float (Float.ofBits 0x3ff0000000000000))))]),
      (.text "colour", .list [])]) entries ∧ Valid entries) ∧
    (∃ error, ofDocument (.map [(.text "interpreter", .null)]) = .error error ∧ error.fault? = none) := by
  constructor
  · apply (ofDocument_accepts_iff _ _).1.mp
    · exact ⟨⟨">>> ", "=> ", "bye", false, true, .critical⟩, by decide +kernel⟩
    · intro entries within
      cases within with
      | void void => contradiction
      | whole absent => contradiction
      | nested present =>
          cases present
          simp
  · have shapeless (entries : List (Scalar × Document)) :
        ¬ Section (.map [(.text "interpreter", .null)]) entries := by
      intro within
      cases within with
      | void void => contradiction
      | whole absent => contradiction
      | nested present => simp [get?, sectionKey, Document.null] at present
    apply (ofDocument_accepts_iff _ _).2.2
    · rintro ⟨entries, within, _⟩
      exact shapeless entries within
    · intro entries within
      exact (shapeless entries within).elim

/-- An empty list is neither null nor a mapping, and gives settings. -/
theorem load_empty_list :
    ¬ ∀ document, (∃ settings, load (some (.ok document)) = .ok settings) →
      document = .null ∨ ∃ entries, document = .map entries := by
  intro all
  have given : load (some (.ok (.list []))) = .ok default := by decide +kernel
  rcases all _ ⟨default, given⟩ with null | ⟨entries, map⟩
  · contradiction
  · contradiction

theorem ofEntries_entries (settings : Settings) : ofEntries settings.entries = .ok settings := by
  rw [ofEntries_eq_ok_iff_takes]
  intro key document found
  apply takes_of_lookup_entries
  cases own : settings.entries.lookup key with
  | some given => rwa [own, Option.some_or] at found
  | none =>
      rw [own, lookup_entries_eq_none_iff.mpr (lookup_entries_eq_none_iff.mp own)] at found
      contradiction

/-- Settings are the same at the top of a document and under the key for them, whatever stands beside it,
and what is wrong with them is the same as well. The settings that are read name one of the levels, and
their own six values are read as the same settings again. -/
theorem ofDocument_placement (entries outer : List (Scalar × Document))
    (keyed : ∀ entry ∈ entries, ∃ key, entry.1 = .text key) (absent : get? sectionKey entries = none)
    (nested : get? sectionKey outer = some (.map entries)) :
    ofDocument (.map outer) = ofDocument (.map entries) ∧
    ((∃ settings, ofDocument (.map entries) = .ok settings) ∨
      ∃ error, ofDocument (.map entries) = .error error ∧ error.fault? = none) ∧
    ∀ settings, ofDocument (.map entries) = .ok settings →
      Fits entries settings ∧
      settings.logLevel.name ∈ ["CRITICAL", "ERROR", "WARNING", "INFO", "DEBUG"] ∧
      settings.entries.map Prod.fst = keys ∧ ofEntries settings.entries = .ok settings := by
  have whole := ofDocument_of_section (.whole absent)
  have within := ofDocument_of_section (.nested nested)
  refine ⟨within.trans whole.symm, ?_, ?_⟩
  · rw [whole]
    cases read : ofSection entries with
    | ok settings => exact .inl ⟨settings, rfl⟩
    | error error =>
        refine .inr ⟨error, rfl, ?_⟩
        rcases ofSection_eq_error_iff.mp read with ⟨_, entry, member, other⟩ | ⟨_, violations, _, _, rfl⟩
        · obtain ⟨key, text⟩ := keyed entry member
          exact absurd text (other key)
        · rfl
  · intro settings given
    rw [whole] at given
    refine ⟨(ofSection_eq_ok_iff.mp given).2, ?_, rfl, ofEntries_entries settings⟩
    cases settings.logLevel <;> decide

/-- Two settings, one of them written otherwise than it is read, at the top and within. -/
theorem ofDocument_placement_debug :
    ∃ entries outer settings, ofDocument (.map entries) = .ok settings ∧
      ofDocument (.map outer) = ofDocument (.map entries) ∧ Fits entries settings ∧
      ofEntries settings.entries = .ok settings ∧
      settings = ⟨"? ", "=> ", "bye", false, false, .debug⟩ := by
  let entries : List (Scalar × Document) :=
    [(.text "prompt", .text "? "), (.text "log_level", .text "Debug")]
  let outer : List (Scalar × Document) :=
    [(.number (.int 1), .null), (.text "interpreter", .map entries)]
  have given : ofDocument (.map entries) = .ok ⟨"? ", "=> ", "bye", false, false, .debug⟩ := by
    decide +kernel
  have keyed : ∀ entry ∈ entries, ∃ key, entry.1 = .text key := by simp [entries]
  have nested : get? sectionKey outer = some (.map entries) := by simp [get?, outer, sectionKey]
  obtain ⟨same, _, read⟩ := ofDocument_placement entries outer keyed (by decide) nested
  obtain ⟨fits, _, _, again⟩ := read _ given
  exact ⟨entries, outer, _, given, same, fits, again, rfl⟩

end Settings

end LineCalc
