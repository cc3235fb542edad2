import LineCalc.Settings

namespace LineCalc

inductive LoadError
  | malformed
  | notMapping
  | sectionNotMapping
  | invalid (violations : List Violation)
  | keyNotText
  | unreadable (fault : Fault)
  deriving DecidableEq, Repr

namespace LoadError

/-- The wording of an error, without what a reader of such files adds to it. -/
def message (file : String) : LoadError → String
  | malformed => s!"invalid YAML in {file}"
  | notMapping => s!"{file} must contain a mapping"
  | sectionNotMapping => s!"`interpreter` in {file} must be a mapping"
  | invalid _ => s!"invalid configuration in {file}"
  | keyNotText => Fault.keyNotText.message
  | unreadable fault => fault.message

def fault? : LoadError → Option Fault
  | keyNotText => some .keyNotText
  | unreadable fault => some fault
  | _ => none

def headline (file : String) : LoadError → String
  | invalid violations =>
    let count := violations.length
    let noun := if count = 1 then "error" else "errors"
    s!"{message file (invalid violations)}: {count} validation {noun} for InterpreterConfig"
  | e => e.message file

end LoadError

namespace Settings

def environmentVariable : String := "SPLITCALC_CONFIG"

def sectionKey : String := "interpreter"

def file? (asked environment : Option String) : Option String :=
  match asked.or environment with
  | some "" => none
  | file => file

def normalPath (path : String) : String :=
  let steps := (path.splitOn "/").filter fun step => step ≠ "" ∧ step ≠ "."
  let root := if path.startsWith "/" then "/" else ""
  let joined := root ++ "/".intercalate steps
  if joined.isEmpty then "." else joined

def textEntries? : List (Scalar × Document) → Option (List (String × Document))
  | [] => some []
  | (.text key, value) :: rest => (textEntries? rest).map ((key, value) :: ·)
  | _ :: _ => none

def ofDocument (document : Document) : Except LoadError Settings :=
  let document := if document.isVoid then .map [] else document
  match document with
  | .map entries =>
    match (Document.get? sectionKey entries).getD document with
    | .map entries =>
      match textEntries? entries with
      | none => .error .keyNotText
      | some entries => (ofEntries entries).mapError .invalid
    | _ => .error .sectionNotMapping
  | _ => .error .notMapping

def load : Option (Except ReadError Document) → Except LoadError Settings
  | none => .ok default
  | some (.error .malformed) => .error .malformed
  | some (.error (.fault fault)) => .error (.unreadable fault)
  | some (.ok document) => ofDocument document

end Settings

end LineCalc
