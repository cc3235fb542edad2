import LineCalc.Event
import LineCalc.Document

/-! Settings, and how a mapping is checked against them.

Every field is checked on its own, so that all violations are found: those of the fields in the
order in which they are declared, then the keys that no field has. -/

namespace LineCalc

structure Settings where
  prompt : String
  resultPrefix : String
  farewell : String
  showTokens : Bool
  showTree : Bool
  logLevel : LogLevel
  deriving DecidableEq, Repr

inductive ViolationKind
  | notText | notTruthValue | unclearTruthValue | unknownLevel | unknownKey
  deriving DecidableEq, Repr

def ViolationKind.code : ViolationKind → String
  | notText => "string_type"
  | notTruthValue => "bool_type"
  | unclearTruthValue => "bool_parsing"
  | unknownLevel => "value_error"
  | unknownKey => "extra_forbidden"

def ViolationKind.message : ViolationKind → String
  | notText => "Input should be a valid string"
  | notTruthValue => "Input should be a valid boolean"
  | unclearTruthValue => "Input should be a valid boolean, unable to interpret input"
  | unknownLevel =>
    "Value error, log_level must be one of " ++ ", ".intercalate (LogLevel.all.map LogLevel.name)
  | unknownKey => "Extra inputs are not permitted"

structure Violation where
  key : String
  kind : ViolationKind
  deriving DecidableEq, Repr

namespace Settings

def default : Settings := ⟨">>> ", "=> ", "bye", false, false, .warning⟩

def keys : List String :=
  ["prompt", "result_prefix", "farewell", "show_tokens", "show_tree", "log_level"]

def readText : Document → Except ViolationKind String
  | .scalar (.text s) => .ok s
  | _ => .error .notText

def truthWords : List (String × Bool) :=
  [("0", false), ("off", false), ("f", false), ("false", false), ("n", false), ("no", false),
   ("1", true), ("on", true), ("t", true), ("true", true), ("y", true), ("yes", true)]

/-- Whether a number is whole and fits a word of 64 bits, one of which is the sign. Of the doubles,
those at the ends of the range are outside it. -/
def isWord (n : Number) : Bool :=
  match n with
  | .int n => -Int.pow 2 63 ≤ n && n < Int.pow 2 63
  | .float _ => n.exact.isWhole && n.compare? (.int (-Int.pow 2 63)) = some .gt
      && n.compare? (.int (Int.pow 2 63)) = some .lt

/-- Takes truth values, the numbers zero and one, and the words for truth values in any case. Any
other word, of letters or of bits, is unclear. -/
def readTruthValue : Document → Except ViolationKind Bool
  | .scalar (.bool b) => .ok b
  | .scalar (.number n) =>
    if n.compare? (.int 0) = some .eq then .ok false
    else if n.compare? (.int 1) = some .eq then .ok true
    else if isWord n then .error .unclearTruthValue
    else .error .notTruthValue
  | .scalar (.text s) =>
    match truthWords.lookup (s.map Char.toLower) with
    | some b => .ok b
    | none => .error .unclearTruthValue
  | _ => .error .notTruthValue

/-- The upper case of a character in the name of a level: of the letters outside ASCII, only the
dotless i has an upper case within it. -/
def upperLevelChar (c : Char) : Char :=
  if c.toNat = 0x131 then 'I' else c.toUpper

def readLevel : Document → Except ViolationKind LogLevel
  | .scalar (.text s) =>
    match LogLevel.ofName? (s.map upperLevelChar) with
    | some level => .ok level
    | none => .error .unknownLevel
  | _ => .error .notText

def field {α : Type} (entries : List (String × Document)) (key : String) (default : α)
    (read : Document → Except ViolationKind α) : Except Violation α :=
  match entries.lookup key with
  | none => .ok default
  | some document => (read document).mapError fun kind => ⟨key, kind⟩

def fieldViolation {α : Type} : Except Violation α → List Violation
  | .ok _ => []
  | .error v => [v]

def ofEntries (entries : List (String × Document)) : Except (List Violation) Settings :=
  let prompt := field entries "prompt" default.prompt readText
  let resultPrefix := field entries "result_prefix" default.resultPrefix readText
  let farewell := field entries "farewell" default.farewell readText
  let showTokens := field entries "show_tokens" default.showTokens readTruthValue
  let showTree := field entries "show_tree" default.showTree readTruthValue
  let logLevel := field entries "log_level" default.logLevel readLevel
  let unknown := (entries.filter fun (key, _) => !keys.contains key).map fun (key, _) =>
    (⟨key, .unknownKey⟩ : Violation)
  let violations := fieldViolation prompt ++ fieldViolation resultPrefix ++ fieldViolation farewell
    ++ fieldViolation showTokens ++ fieldViolation showTree ++ fieldViolation logLevel ++ unknown
  match violations, prompt, resultPrefix, farewell, showTokens, showTree, logLevel with
  | [], .ok prompt, .ok resultPrefix, .ok farewell, .ok showTokens, .ok showTree, .ok logLevel =>
    .ok ⟨prompt, resultPrefix, farewell, showTokens, showTree, logLevel⟩
  | violations, _, _, _, _, _, _ => .error violations

def entries (s : Settings) : List (String × Document) :=
  [("prompt", .text s.prompt), ("result_prefix", .text s.resultPrefix),
   ("farewell", .text s.farewell), ("show_tokens", .scalar (.bool s.showTokens)),
   ("show_tree", .scalar (.bool s.showTree)), ("log_level", .text s.logLevel.name)]

end Settings

end LineCalc
