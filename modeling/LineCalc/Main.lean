import LineCalc.Calendar
import LineCalc.Command
import Std.Time.DateTime.Timestamp

namespace LineCalc.Program

def stack : Stack := ⟨12, 4, 1, 1, 3, by decide⟩

def usage : String :=
  "Usage: splitcalc repl [-c FILE] [--tokens] [--tree]\n" ++
  "       splitcalc eval [-c FILE] [--tokens] [--tree] [--json] EXPRESSION\n\n" ++
  "Evaluate single-line arithmetic expressions."

def notify (notices : List Command.Notice) : IO Unit := do
  let now ← Std.Time.Timestamp.now
  let time := Calendar.stamp now.toMillisecondsSinceUnixEpoch.val.toNat
  for line in notices.filterMap (Command.Notice.line? time) do
    IO.eprintln line

def finish : Command.Ending → IO UInt32
  | .usage code => return code.toUInt32
  | .exit code => return code.toUInt32
  | .fault fault => do
    IO.eprintln fault.message
    return 1

def contents (file : String) : IO (Option (Except ReadError Document)) := do
  try
    let text ← IO.FS.readFile file
    return some (Yaml.read text)
  catch _ => return none

def answerLines (settings : Settings) (output : IO.FS.Stream) :
    List String → IO (Option Fault)
  | [] => return none
  | line :: rest => do
    let transcript := Dialogue.answer stack.inner.inner settings line
    notify (Command.log settings.logLevel transcript.events)
    output.putStr transcript.output
    match transcript.fault with
    | some fault => return some fault
    | none =>
      output.putStr settings.prompt
      output.flush
      answerLines settings output rest

partial def converse (settings : Settings) (input output : IO.FS.Stream) : IO (Option Fault) := do
  let line ← input.getLine
  if line.isEmpty then
    output.putStr ("\n" ++ settings.farewell ++ "\n")
    output.flush
    return none
  let lines := Dialogue.lines (String.ofList (Command.unifyLineEnds line.toList))
  match ← answerLines settings output lines with
  | some fault => return some fault
  | none => converse settings input output

def run (task : Command.Task) (options : Command.Options) (settings : Settings) : IO UInt32 := do
  match task with
  | .repl =>
    let output ← IO.getStdout
    output.putStr settings.prompt
    output.flush
    match ← converse settings (← IO.getStdin) output with
    | some fault => finish (.fault fault)
    | none => return 0
  | .eval expression =>
    let outcome := Command.evaluate stack settings options.json expression
    IO.print outcome.output
    notify outcome.notices
    finish outcome.ending

end LineCalc.Program

open LineCalc Program in
def main (words : List String) : IO UInt32 := do
  match Command.request words with
  | .help =>
    IO.println usage
    return 0
  | .misuse =>
    IO.eprintln usage
    return 2
  | .run task options =>
    let environment ← IO.getEnv Settings.environmentVariable
    let file := (Settings.file? options.config environment).map Settings.normalPath
    let found ← match file with
      | some file => contents file
      | none => pure none
    match Command.configure options found with
    | .ok settings => run task options settings
    | .error e =>
      let outcome := Command.refuse (file.getD "") e
      notify outcome.notices
      finish outcome.ending
