import Mathlib.Data.List.Basic
import LineCalc.Document.Yaml
import LineCalc.Settings.Load

/-! The section of a document that settings are read from.

A document that holds nothing has an empty section, and a mapping has the one under its key or is the
section itself. Any other document is refused, and so is a section that settings do not accept. The user is
told of all that, but not of a key in the section that is no text. -/

namespace LineCalc.Settings

open Document (get?)

inductive Section : Document → List (Scalar × Document) → Prop
  | void {document : Document} (void : document.isVoid = true) : Section document []
  | whole {entries : List (Scalar × Document)} (absent : get? sectionKey entries = none) :
      Section (.map entries) entries
  | nested {entries inner : List (Scalar × Document)}
      (present : get? sectionKey entries = some (.map inner)) : Section (.map entries) inner

def ofSection (entries : List (Scalar × Document)) : Except LoadError Settings :=
  match textEntries? entries with
  | none => .error .keyNotText
  | some entries => (ofEntries entries).mapError .invalid

variable {document : Document} {entries : List (Scalar × Document)}

theorem not_isVoid_map {value : Document} (present : get? sectionKey entries = some value) :
    ¬ (Document.map entries).isVoid = true := by
  cases entries with
  | nil => contradiction
  | cons entry rest => simp [Document.isVoid]

theorem ofDocument_of_section (within : Section document entries) :
    ofDocument document = ofSection entries := by
  cases within with
  | void void =>
      rw [ofDocument, if_pos void]
      rfl
  | whole absent =>
      cases entries with
      | nil => rfl
      | cons entry rest =>
          have filled : ¬ (Document.map (entry :: rest)).isVoid = true := by simp [Document.isVoid]
          simp only [ofDocument, if_neg filled, absent]
          rfl
  | nested present =>
      simp only [ofDocument, if_neg (not_isVoid_map present), present]
      rfl

theorem ofDocument_of_not_section (none : ∀ entries, ¬ Section document entries) :
    ofDocument document = .error .notMapping ∨ ofDocument document = .error .sectionNotMapping := by
  have filled : ¬ document.isVoid = true := fun void => none [] (.void void)
  rw [ofDocument, if_neg filled]
  cases document with
  | scalar s => exact .inl rfl
  | list items => exact .inl rfl
  | map entries =>
      cases found : get? sectionKey entries with
      | none => exact (none entries (.whole found)).elim
      | some value =>
          cases value with
          | scalar s | list items =>
              simp only [found]
              exact .inr rfl
          | map inner => exact (none inner (.nested found)).elim

theorem textEntries?_eq_none_iff :
    textEntries? entries = none ↔ ∃ entry ∈ entries, ∀ s, entry.1 ≠ .text s := by
  induction entries with
  | nil => simp [textEntries?]
  | cons entry rest ih =>
      obtain ⟨key, value⟩ := entry
      cases key with
      | text s => simp [textEntries?, ih]
      | null | bool | number | date => simp [textEntries?]

theorem ofSection_eq_error_iff {error : LoadError} :
    ofSection entries = .error error ↔
      (error = .keyNotText ∧ ∃ entry ∈ entries, ∀ s, entry.1 ≠ .text s) ∨
        ∃ pairs violations, textEntries? entries = some pairs ∧
          ofEntries pairs = .error violations ∧ error = .invalid violations := by
  rw [← textEntries?_eq_none_iff, ofSection]
  cases textEntries? entries with
  | none => simp [eq_comm]
  | some pairs =>
      cases read : ofEntries pairs with
      | ok settings => simp [read, Except.mapError]
      | error violations => simp [read, Except.mapError, eq_comm]

def Misnamed (document : Document) : Prop :=
  ∃ entries, Section document entries ∧ ∃ entry ∈ entries, ∀ s, entry.1 ≠ .text s

theorem fault?_ofDocument {error : LoadError} {fault : Fault}
    (failed : ofDocument document = .error error) (escaped : error.fault? = some fault) :
    fault = .keyNotText ∧ Misnamed document := by
  by_cases holds : ∃ entries, Section document entries
  · obtain ⟨entries, within⟩ := holds
    rw [ofDocument_of_section within] at failed
    rcases ofSection_eq_error_iff.mp failed with ⟨rfl, key⟩ | ⟨_, _, _, _, rfl⟩
    · exact ⟨(Option.some.inj escaped).symm, entries, within, key⟩
    · contradiction
  · rcases ofDocument_of_not_section (not_exists.mp holds) with refused | refused
    · rw [refused] at failed
      cases failed
      contradiction
    · rw [refused] at failed
      cases failed
      contradiction

/-- Whatever document is read, it gives settings or an error that the user is told of, but for one fault: a
key in the section of the settings that is no text. -/
theorem ofDocument_escapes_iff (document : Document) :
    load (some (.ok document)) = ofDocument document ∧
    (∀ fault, (∃ error, ofDocument document = .error error ∧ error.fault? = some fault) ↔
      fault = .keyNotText ∧ Misnamed document) ∧
    (¬ Misnamed document →
      (∃ settings, ofDocument document = .ok settings) ∨
        ∃ error, ofDocument document = .error error ∧ error.fault? = none) := by
  refine ⟨rfl, fun fault => ⟨?_, ?_⟩, ?_⟩
  · rintro ⟨error, failed, escaped⟩
    exact fault?_ofDocument failed escaped
  · rintro ⟨rfl, entries, within, key⟩
    refine ⟨.keyNotText, ?_, rfl⟩
    rw [ofDocument_of_section within]
    exact ofSection_eq_error_iff.mpr (.inl ⟨rfl, key⟩)
  · intro named
    cases result : ofDocument document with
    | ok settings => exact .inl ⟨settings, rfl⟩
    | error error =>
        refine .inr ⟨error, rfl, ?_⟩
        apply Option.eq_none_iff_forall_ne_some.mpr
        intro fault escaped
        exact named (fault?_ofDocument result escaped).2

/-- A number as a key escapes, also in a nested section. A key that no setting has does not. -/
theorem ofDocument_escapes_iff_nested :
    (∃ error, ofDocument (.map [(.text "interpreter", .map [(.number (.int 1), .text "x")])]) =
      .error error ∧ error.fault? = some .keyNotText) ∧
    ((∃ settings, ofDocument (.map [(.text "colour", .text "red")]) = .ok settings) ∨
      ∃ error, ofDocument (.map [(.text "colour", .text "red")]) = .error error ∧
        error.fault? = none) := by
  constructor
  · apply ((ofDocument_escapes_iff _).2.1 .keyNotText).mpr
    exact ⟨rfl, _, .nested rfl, _, List.mem_singleton_self _, by simp⟩
  · apply (ofDocument_escapes_iff _).2.2
    rintro ⟨entries, within, key⟩
    cases within with
    | void void => contradiction
    | whole => simp at key
    | nested present => contradiction

/-- A file that gives the key one is no mapping of settings, and the user is not told so. -/
theorem load_number_key :
    ¬ ((∃ settings, load (some (Yaml.read "1: 2\n")) = .ok settings) ∨
      ∃ error, load (some (Yaml.read "1: 2\n")) = .error error ∧ error.fault? = none) := by
  have escaped : load (some (Yaml.read "1: 2\n")) = .error .keyNotText := by decide +kernel
  rw [escaped]
  intro told
  rcases told with ⟨settings, came⟩ | ⟨error, failed, told⟩
  · contradiction
  · cases failed
    contradiction

end LineCalc.Settings
