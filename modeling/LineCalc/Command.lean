import LineCalc.Dialogue
import LineCalc.Document.Yaml
import LineCalc.Settings.Load

/-! The command line.

`repl` holds a dialogue on the standard input, and `eval` evaluates one expression. Options may
stand before and after the expression; `--` ends them. A mistake among the options goes before a
request for help, and that before a mistake in the number of arguments. -/

namespace LineCalc.Command

inductive Task
  | repl
  | eval (expression : String)
  deriving DecidableEq, Repr

structure Options where
  config : Option String
  tokens : Bool
  tree : Bool
  json : Bool
  help : Bool
  arguments : List String
  deriving DecidableEq, Repr

def Options.initial : Options := ⟨none, false, false, false, false, []⟩

inductive Word
  | argument
  | endOfOptions
  /-- The option that names the settings file, with the name if it is part of the word. -/
  | config (file : Option String)
  | tokens
  | tree
  | json
  | help
  | mistake
  deriving DecidableEq, Repr

/-- A switch, which takes no value. -/
def Word.switch (word : Word) : Option String → Word
  | none => word
  | some _ => mistake

def splitValue (cs : List Char) : String × Option String :=
  let name := String.ofList (cs.takeWhile (· ≠ '='))
  match cs.dropWhile (· ≠ '=') with
  | [] => (name, none)
  | _ :: value => (name, some (String.ofList value))

def Word.ofString (word : String) : Word :=
  match word.toList with
  | ['-', '-'] => endOfOptions
  | '-' :: '-' :: rest =>
    match splitValue rest with
    | ("config", value) => config value
    | ("tokens", value) => switch tokens value
    | ("tree", value) => switch tree value
    | ("json", value) => switch json value
    | ("help", value) => switch help value
    | _ => mistake
  | ['-', 'c'] => config none
  | '-' :: 'c' :: file => config (some (String.ofList file))
  | '-' :: _ :: _ => mistake
  | _ => argument

def readOptions (hasJson : Bool) : List String → Options → Option Options
  | [], options => some options
  | word :: rest, options =>
    match Word.ofString word with
    | .argument =>
      readOptions hasJson rest { options with arguments := options.arguments ++ [word] }
    | .endOfOptions => some { options with arguments := options.arguments ++ rest }
    | .config (some file) => readOptions hasJson rest { options with config := some file }
    | .config none =>
      match rest with
      | file :: rest => readOptions hasJson rest { options with config := some file }
      | [] => none
    | .tokens => readOptions hasJson rest { options with tokens := true }
    | .tree => readOptions hasJson rest { options with tree := true }
    | .json => if hasJson then readOptions hasJson rest { options with json := true } else none
    | .help => readOptions hasJson rest { options with help := true }
    | .mistake => none

def readLeading : List String → (help : Bool) → Option (Bool × List String)
  | [], help => some (help, [])
  | word :: rest, help =>
    match Word.ofString word with
    | .argument => some (help, word :: rest)
    | .endOfOptions => some (help, rest)
    | .help => readLeading rest true
    | _ => none

inductive Request
  | help
  | misuse
  | run (task : Task) (options : Options)
  deriving DecidableEq, Repr

def requestWith (task? : List String → Option Task) (options? : Option Options) : Request :=
  match options? with
  | none => .misuse
  | some options =>
    if options.help then .help
    else
      match task? options.arguments with
      | some task => .run task options
      | none => .misuse

def request (words : List String) : Request :=
  match readLeading words false with
  | none => .misuse
  | some (true, _) => .help
  | some (false, "repl" :: rest) =>
    requestWith (fun arguments => if arguments.isEmpty then some .repl else none)
      (readOptions false rest .initial)
  | some (false, "eval" :: rest) =>
    requestWith
      (fun arguments => match arguments with
        | [expression] => some (.eval expression)
        | _ => none)
      (readOptions true rest .initial)
  | some (false, _) => .misuse

inductive Notice
  | event (event : Event)
  | text (line : String)
  deriving DecidableEq

/-- The line of a notice, with the time that a log line starts with. An event that cannot be worded
has none. -/
def Notice.line? (time : String) : Notice → Option String
  | event e => (e.logLine time).toOption
  | text line => some line

inductive Ending
  /-- Help or usage was shown. -/
  | usage (code : Nat)
  | exit (code : Nat)
  | fault (fault : Fault)
  deriving DecidableEq, Repr

/-- What a command wrote to the standard output and to the standard error, and how it ended. -/
structure Outcome where
  output : String
  notices : List Notice
  ending : Ending
  deriving DecidableEq

def log (level : LogLevel) (events : List Event) : List Notice :=
  (events.filter (Event.isShownAt level)).map .event

def configure (options : Options) (contents : Option (Except ReadError Document)) :
    Except LoadError Settings :=
  (Settings.load contents).map fun settings =>
    { settings with
      showTokens := settings.showTokens || options.tokens
      showTree := settings.showTree || options.tree }

def refuse (file : String) (e : LoadError) : Outcome :=
  match e.fault? with
  | some fault => ⟨"", [], .fault fault⟩
  | none => ⟨"", [.text (Failure.ofMessage .config (e.headline file)).text], .exit 2⟩

/-- Evaluates one expression. An error goes to the standard error, unless it is part of JSON. -/
def evaluate (stack : Stack) (settings : Settings) (json : Bool) (expression : String) : Outcome :=
  let run := Line.run stack.inner expression
  let notices := log settings.logLevel run.events
  match run.outcome with
  | .error fault => ⟨"", notices, .fault fault⟩
  | .ok report =>
    let ending := Ending.exit (if report.success then 0 else 1)
    if json then
      match report.jsonText stack.inner Report.defaultIndent with
      | .error fault => ⟨"", notices, .fault fault⟩
      | .ok text => ⟨text ++ "\n", notices, ending⟩
    else
      match report.describe stack.inner settings.showTokens settings.showTree with
      | .error fault => ⟨"", notices, .fault fault⟩
      | .ok dump =>
        let dump := Dialogue.paragraph dump
        match report.render settings.resultPrefix with
        | .error fault => ⟨dump, notices, .fault fault⟩
        | .ok text =>
          if report.success then ⟨dump ++ text ++ "\n", notices, ending⟩
          else ⟨dump, notices ++ [.text text], ending⟩

def unifyLineEnds : List Char → List Char
  | [] => []
  | '\r' :: '\n' :: rest => '\n' :: unifyLineEnds rest
  | '\r' :: rest => '\n' :: unifyLineEnds rest
  | c :: rest => c :: unifyLineEnds rest

def converse (stack : Stack) (settings : Settings) (input : String) : Outcome :=
  let transcript := Dialogue.run stack.inner settings (String.ofList (unifyLineEnds input.toList))
  ⟨transcript.output, log settings.logLevel transcript.events,
    match transcript.fault with
    | some fault => .fault fault
    | none => .exit 0⟩

/-- Runs a command line. `contents` gives what is read of the files that there are. -/
def run (stack : Stack) (contents : String → Option (Except ReadError Document))
    (environment : Option String) (input : String) (words : List String) : Outcome :=
  match request words with
  | .help => ⟨"", [], .usage 0⟩
  | .misuse => ⟨"", [], .usage 2⟩
  | .run task options =>
    let file := (Settings.file? options.config environment).map Settings.normalPath
    match configure options (file.bind contents) with
    | .error e => refuse (file.getD "") e
    | .ok settings =>
      match task with
      | .repl => converse stack settings input
      | .eval expression => evaluate stack settings options.json expression

end LineCalc.Command
