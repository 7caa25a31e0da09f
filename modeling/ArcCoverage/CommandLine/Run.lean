/-
# Running the command line

Every source is reported on in turn. A source that fails leaves the others alone, so a command line
that can be parsed always ends well; only help, the version and usage errors end it early.
-/
import ArcCoverage.CommandLine.Parse
import ArcCoverage.ProfileReport

namespace ArcCoverage.CommandLine

/-- The directory that report files go to. -/
def outputDirectory : String := "."

/-- The name and version of the program. -/
def versionText : String := "gcovkit 0.1.0"

/-- How the program is called. -/
def usageText : String := "Usage: gcovkit [OPTIONS] <SOURCE>..."

/-- A line of the help text on one option. -/
def helpLine (o : Opt) : String :=
  let letter :=
    match o.letter? with
    | some c => String.ofList ['-', c, ',', ' ']
    | none => "    "
  Text.padRight 42 ("  " ++ letter ++ o.shown) ++ o.purpose

/-- The help text. -/
def helpText : String :=
  Text.unlines
    (["Produce gcov-compatible coverage reports from .gcno and .gcda files", "", usageText, "",
      "Arguments:", "  <SOURCE>...  Source files to report on", "", "Options:"] ++
      Opt.all.map helpLine)

/-- What is written, and where to, when a command line is not carried out. -/
def Stop.text : Stop → String
  | help => helpText
  | version => Text.line versionText
  | misused e =>
    Text.unlines
      ["error: " ++ e.message, "", usageText, "", "For more information, try '--help'."]

/-- The exit code of a command line that is not carried out. -/
def Stop.exitCode : Stop → Nat
  | help | version => 0
  | misused _ => 2

variable {m : Type → Type} [Monad m] [Environment m]

/-- The text of a stop, written. -/
def announceStop (stop : Stop) : m Unit :=
  match stop with
  | .misused _ => Environment.diagnose stop.text
  | _ => Render.tell stop.text

/-- One source, and what the log says of its end. -/
def processSource (invocation : Invocation) (source : String) : m Unit := do
  match ← ProfileReport.run outputDirectory invocation.settings invocation.options source with
  | .done => Environment.debug .command s!"Reported on '{source}'"
  | .failed stage => Environment.info .command s!"Gave up on '{source}' while {stage.label}"

/-- Sources one after the other. -/
def processAll (invocation : Invocation) : List String → m Unit
  | [] => return ()
  | source :: sources => do
    processSource invocation source
    processAll invocation sources

/-- **An invocation carried out.** -/
def process (invocation : Invocation) : m Unit := processAll invocation invocation.sources

/-- **A command line carried out,** and its exit code if it ends early. -/
def run (arguments : List String) : m (Option Nat) := do
  match parse arguments with
  | .error stop =>
    announceStop stop
    return some stop.exitCode
  | .ok invocation =>
    process invocation
    return none

end ArcCoverage.CommandLine
