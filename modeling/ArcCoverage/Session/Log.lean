/-
# Log entries

What the program tells about its own work, apart from its diagnostics. An entry has a level, a topic
and a text, and is written `[INFO ] text`; at the two most talkative settings the topic stands
behind the level. Lines of a text behind its first are indented.
-/
import ArcCoverage.Text.Layout

namespace ArcCoverage

/-- How important a log entry is. -/
inductive LogLevel where
  | error
  | warn
  | info
  | debug
  | trace
  deriving DecidableEq, Repr

/-- The part of the work that a log entry is about. -/
inductive LogTopic where
  | format
  | loading
  | report
  | source
  | command
  deriving DecidableEq, Repr

/-- A log entry. -/
structure LogEntry where
  level : LogLevel
  topic : LogTopic
  text : String
  deriving DecidableEq, Repr

namespace LogLevel

/-- More important levels are smaller. -/
def rank : LogLevel → Nat
  | error => 0
  | warn => 1
  | info => 2
  | debug => 3
  | trace => 4

/-- A level as it is written. -/
def label : LogLevel → String
  | error => "ERROR"
  | warn => "WARN"
  | info => "INFO"
  | debug => "DEBUG"
  | trace => "TRACE"

/-- Whether entries show their topic at this setting. -/
def showsTopic : LogLevel → Bool
  | debug | trace => true
  | _ => false

end LogLevel

/-- A topic as it is written. -/
def LogTopic.label : LogTopic → String
  | format => "gcov"
  | loading => "loader"
  | report => "report"
  | source => "pipeline"
  | command => "command"

/-- A text of several lines, those behind the first indented. -/
def indentLines (text : String) : String :=
  String.ofList (text.toList.flatMap fun c => if c = '\n' then "\n    ".toList else [c])

/-- An entry as it is written at a setting; nothing if the setting leaves it out. -/
def LogEntry.shown (setting : LogLevel) (entry : LogEntry) : String :=
  if setting.rank < entry.level.rank then ""
  else
    let topic := if setting.showsTopic then " " ++ Text.padLeft 10 entry.topic.label else ""
    Text.line ("[" ++ Text.padRight 5 entry.level.label ++ topic ++ "] " ++ indentLines entry.text)

end ArcCoverage
