/-
Log lines as text: first what is left out of the filter, then the lines that it shows.
-/
import TeImage.CommandLine.Arguments
import TeImage.CommandLine.LogFilter
import TeImage.Text.Numeral
import TeImage.Text.Table

namespace TeImage.CommandLine

/-- Log lines are colored if the environment asks for it. A style of their own decides; without one,
color must be forced, and not be ruled out. Output to a terminal plays no part. -/
def wantsLogColor (environment : Environment) : Bool :=
  match environment.logStyle? with
  | some "always" => true
  | some "never" => false
  | _ => !environment.noColor?.any (· ≠ "") && environment.forceColor?.any (· ≠ "")

/-- The control sequence for the color of a level. -/
def levelColor : Level → String
  | .error => "\x1b[1m\x1b[31m"
  | .warn => "\x1b[33m"
  | .info => "\x1b[32m"
  | .debug => "\x1b[34m"
  | .trace => "\x1b[36m"

/-- The control sequence for gray. -/
def gray : String := "\x1b[90m"

/-- `s` behind a control sequence, and the end of its effect, where color is wanted. -/
def colored (wanted : Bool) (control s : String) : String :=
  if wanted then control ++ s ++ "\x1b[0m" else s

/-- A log line as text. The lines of a longer message are indented. -/
def logText (color : Bool) (line : LogLine) : String :=
  let level := colored color (levelColor line.level) (Text.padRight 5 line.level.name)
  let lines := (Text.lines line.message).map String.ofList
  colored color gray "[" ++ level ++ " " ++ line.channel.target ++ colored color gray "]" ++ " " ++
    "\n    ".intercalate lines ++ "\n"

def remarkText (r : LogFilter.Remark) : String := s!"warning: {r.message}, ignoring it\n"

/-- The log output of a run: the remarks on its filter, and the lines that the filter shows. -/
def logOutput (environment : Environment) (verbosity : Nat) (lines : List LogLine) : String :=
  let (filter, remarks) := LogFilter.forRun environment.logFilter? verbosity
  let color := wantsLogColor environment
  String.join (remarks.map remarkText ++ (lines.filter filter.shows).map (logText color))

end TeImage.CommandLine
