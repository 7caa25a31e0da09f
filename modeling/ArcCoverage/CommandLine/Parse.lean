/-
# Parsing the command line

Arguments are taken one by one:

| argument | meaning |
| --- | --- |
| `--` | all arguments behind it are sources |
| `--name`, `--name=value` | an option |
| `-abc`, `-ovalue`, `-o=value` | letters of switches; the rest behind a setting's letter is its value |
| behind a setting without value | its value, also if it is `-` or empty |
| any other | a source |

A setting waits for its value until the next argument that is not one; only then is it entered, so a
mistake in that argument itself is reported first. No option is given twice.
-/
import ArcCoverage.CommandLine.Option
import ArcCoverage.Session.Log
import ArcCoverage.SourceReport
import ArcCoverage.Text.Terminal

namespace ArcCoverage.CommandLine

/-- What is wrong with a command line. -/
inductive UsageError where
  | unexpected (argument : String)
  | repeated (option : Opt)
  | valueMissing (setting : Setting)
  | unexpectedValue (option : Opt) (value : String)
  | invalidValue (setting : Setting) (value : String)
  | noSources
  deriving DecidableEq, Repr

/-- The wording of a usage error. What the user wrote is quoted without terminal control. -/
def UsageError.message : UsageError → String
  | unexpected argument => s!"unexpected argument '{Text.withoutControl argument}' found"
  | repeated option => s!"the argument '{option.shown}' cannot be used multiple times"
  | valueMissing setting =>
    s!"a value is required for '{(Opt.setting setting).shown}' but none was supplied"
  | unexpectedValue option value =>
    s!"unexpected value '{Text.withoutControl value}' for '{option.shown}' found; " ++
      "no more were expected"
  | invalidValue setting value =>
    s!"invalid value '{Text.withoutControl value}' for '{(Opt.setting setting).shown}'"
  | noSources => "the following required arguments were not provided:"

/-- Why a command line is not carried out. -/
inductive Stop where
  | help
  | version
  | misused (error : UsageError)
  deriving DecidableEq, Repr

/-- What a command line asks for. -/
structure Invocation where
  options : Options := {}
  settings : Settings := {}
  logLevel : Option LogLevel := none
  sources : List String := []
  deriving DecidableEq, Repr

/-- The log setting of a word; `none` is no logging. -/
def logLevel? : String → Option (Option LogLevel)
  | "none" => some none
  | "error" => some (some .error)
  | "warn" => some (some .warn)
  | "info" => some (some .info)
  | "debug" => some (some .debug)
  | "trace" => some (some .trace)
  | _ => none

/-- What the arguments so far have told. -/
structure Parsed where
  switches : List Switch := []
  values : List (Setting × String) := []
  sources : List String := []
  /-- The setting given last, if it is not entered yet, and its value if that was found. -/
  waiting : Option (Setting × Option String) := none
  /-- Whether all arguments from here on are sources. -/
  sourcesOnly : Bool := false
  deriving DecidableEq, Repr

namespace Parsed

/-- Whether a setting was given. -/
def has (p : Parsed) (s : Setting) : Bool := p.values.any fun v => v.1 == s

/-- The value of a setting. -/
def value? (p : Parsed) (s : Setting) : Option String := p.values.lookup s

/-- **A value entered** for a setting. -/
def enter (p : Parsed) (s : Setting) (value : String) : Except Stop Parsed :=
  if p.has s then .error (.misused (.repeated (.setting s)))
  else if s = .logLevel && value.isEmpty then .error (.misused (.valueMissing s))
  else if s = .logLevel && (logLevel? value).isNone then
    .error (.misused (.invalidValue s value))
  else .ok { p with values := p.values ++ [(s, value)] }

/-- The setting that waits, entered. -/
def settle (p : Parsed) : Except Stop Parsed :=
  match p.waiting with
  | none => .ok p
  | some (s, none) => .error (.misused (.valueMissing s))
  | some (s, some value) => { p with waiting := none }.enter s value

/-- A switch, or one of the options that end everything. -/
def act (p : Parsed) (o : Opt) : Except Stop Parsed := do
  let p ← p.settle
  match o with
  | .help => throw .help
  | .version => throw .version
  | .setting _ => return p
  | .switch s =>
    if p.switches.contains s then throw (.misused (.repeated o))
    return { p with switches := p.switches ++ [s] }

/-- A setting with its value, or one that waits for it. -/
def set (p : Parsed) (s : Setting) (value : Option String) : Except Stop Parsed := do
  let p ← p.settle
  match value with
  | some value => p.enter s value
  | none => return { p with waiting := some (s, none) }

/-- A long option. -/
def long (p : Parsed) (name : String) (value : Option String) : Except Stop Parsed :=
  match Opt.ofName? name, value with
  | none, _ => .error (.misused (.unexpected ("--" ++ name)))
  | some (.setting s), value => p.set s value
  | some o, some value => .error (.misused (.unexpectedValue o value))
  | some o, none => p.act o

/-- Letters of options. -/
def letters (p : Parsed) : List Char → Except Stop Parsed
  | [] => .ok p
  | c :: rest =>
    match Opt.ofLetter? c with
    | none => .error (.misused (.unexpected (String.ofList ['-', c])))
    | some (.setting s) =>
      match rest with
      | [] => p.set s none
      | '=' :: value => p.set s (some (String.ofList value))
      | value => p.set s (some (String.ofList value))
    | some o => do
      let p ← p.act o
      p.letters rest

/-- An argument that is a value or a source. -/
def plain (p : Parsed) (argument : String) : Except Stop Parsed :=
  match p.waiting with
  | some (s, none) =>
    if p.sourcesOnly then .error (.misused (.valueMissing s))
    else .ok { p with waiting := some (s, some argument) }
  | _ => do
    let p ← p.settle
    return { p with sources := p.sources ++ [argument] }

/-- **The next argument.** -/
def take (p : Parsed) (argument : String) : Except Stop Parsed :=
  if p.sourcesOnly then p.plain argument
  else
    match argument.toList with
    | ['-', '-'] => .ok { p with sourcesOnly := true }
    | '-' :: '-' :: rest =>
      let name := rest.takeWhile (· != '=')
      match rest.dropWhile (· != '=') with
      | _ :: value => p.long (String.ofList name) (some (String.ofList value))
      | [] => p.long (String.ofList name) none
    | '-' :: c :: rest => p.letters (c :: rest)
    | _ => p.plain argument

/-- All arguments. -/
def takeAll (p : Parsed) : List String → Except Stop Parsed
  | [] => p.settle
  | argument :: arguments => do
    let p ← p.take argument
    p.takeAll arguments

/-- The report options. -/
def options (p : Parsed) : Options where
  allBlocks := p.switches.contains .allBlocks
  branchProbabilities := p.switches.contains .branchProbabilities
  branchCounts := p.switches.contains .branchCounts
  functionSummaries := p.switches.contains .functionSummaries
  intermediateFormat := p.switches.contains .intermediateFormat
  longFileNames := p.switches.contains .longFileNames
  demangledNames := p.switches.contains .demangledNames
  noOutput := p.switches.contains .noOutput
  preservePaths := p.switches.contains .preservePaths
  relativeOnly := p.switches.contains .relativeOnly
  useStdout := p.switches.contains .stdout
  unconditionalBranches := p.switches.contains .unconditionalBranches
  hashFilenames := p.switches.contains .hashFilenames
  sourcePrefix := (p.value? .sourcePrefix).getD ""

/-- Where the artifacts are. -/
def settings (p : Parsed) : Settings where
  objectPath := (p.value? .objectDirectory).getD ""
  notesName := p.value? .gcno
  dataName := p.value? .gcda
  dump := p.switches.contains .dump

/-- What the arguments ask for. -/
def invocation (p : Parsed) : Invocation where
  options := p.options
  settings := p.settings
  logLevel := ((p.value? .logLevel).bind logLevel?).join
  sources := p.sources

end Parsed

/-- **A command line,** without the name of the program. -/
def parse (arguments : List String) : Except Stop Invocation := do
  let p ← ({} : Parsed).takeAll arguments
  if p.sources.isEmpty then throw (.misused .noSources)
  return p.invocation

end ArcCoverage.CommandLine
