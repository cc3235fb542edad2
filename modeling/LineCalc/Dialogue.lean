import LineCalc.Line
import LineCalc.Settings

namespace LineCalc

structure Transcript where
  output : String
  events : List Event
  failures : Nat
  fault : Option Fault
  deriving DecidableEq

namespace Transcript

def empty : Transcript := ⟨"", [], 0, none⟩

def append (first second : Transcript) : Transcript :=
  match first.fault with
  | some _ => first
  | none =>
    ⟨first.output ++ second.output, first.events ++ second.events,
      first.failures + second.failures, second.fault⟩

end Transcript

namespace Dialogue

def cutLines : List Char → List (List Char)
  | [] => []
  | c :: rest =>
    if c = '\n' then [] :: cutLines rest
    else
      match cutLines rest with
      | [] => [[c]]
      | line :: lines => (c :: line) :: lines

def lines (input : String) : List String :=
  (cutLines input.toList).map String.ofList

def trimEnd (line : String) : String :=
  String.ofList (line.toList.reverse.dropWhile fun c => c = '\r' || c = '\n').reverse

def isBlankLine (line : String) : Bool := line.toList.all Text.isBlank

def paragraph (text : String) : String := if text.isEmpty then "" else text ++ "\n"

def answerReport (stack : Stack) (settings : Settings) (events : List Event) (report : Report) : Transcript :=
  let failures := if report.success then 0 else 1
  match report.describe stack settings.showTokens settings.showTree with
  | .error fault => ⟨"", events, failures, some fault⟩
  | .ok dump =>
    let dump := paragraph dump
    match report.render settings.resultPrefix with
    | .error fault => ⟨dump, events, failures, some fault⟩
    | .ok result => ⟨dump ++ result ++ "\n", events, failures, none⟩

def answer (stack : Stack) (settings : Settings) (line : String) : Transcript :=
  let line := trimEnd line
  if isBlankLine line then .empty
  else
    let run := Line.run stack line
    match run.outcome with
    | .error fault => ⟨"", run.events, 0, some fault⟩
    | .ok report => answerReport stack settings run.events report

def onLines (stack : Stack) (settings : Settings) : List String → Transcript
  | [] => ⟨settings.prompt ++ "\n" ++ settings.farewell ++ "\n", [], 0, none⟩
  | line :: rest =>
    let prompt : Transcript := ⟨settings.prompt, [], 0, none⟩
    (prompt.append (answer stack settings line)).append (onLines stack settings rest)

def run (stack : Stack) (settings : Settings) (input : String) : Transcript :=
  onLines stack.inner settings (lines input)

end Dialogue

end LineCalc
