import LineCalc.Line
import LineCalc.Settings

namespace LineCalc

structure Session where
  settings : Settings
  last : Option Report

namespace Session

def start (settings : Settings) : Session := ⟨settings, none⟩

def describe (stack : Stack) (s : Session) (r : Report) : Except Fault String :=
  r.describe stack s.settings.showTokens s.settings.showTree

def render (s : Session) (r : Report) : Except Fault String :=
  r.render s.settings.resultPrefix

def run (stack : Stack) (s : Session) (line : String) : Run × Session :=
  let run := Line.run stack line
  (run, { s with last := run.outcome.toOption })

end Session

end LineCalc
