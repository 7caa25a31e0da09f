/-
# Rendering

A report on one main source covers every file of its profile. For each there is a report file and a
summary:

| options | report | summary |
| --- | --- | --- |
| none | a file in the output directory | standard output, with `Creating 'name'` |
| to standard output | standard output | none |
| no output | none | standard output |

In the intermediate format all files share one report, named for the main source; it is written behind
the summaries, and announced on its own.

Rendering stops at the first report that cannot be written. Summaries are written as well as can be.
-/
import ArcCoverage.Report.Annotated
import ArcCoverage.Report.Intermediate
import ArcCoverage.Report.OutputName
import ArcCoverage.Report.Summary
import ArcCoverage.Session.Environment
import ArcCoverage.Text.Utf8

namespace ArcCoverage

/-- Why a report was not written. -/
structure RenderError where
  cause : SystemError
  /-- What was being done. -/
  context : String
  deriving DecidableEq, Repr

/-- The wording of an error: its cause, and what was being done. -/
def RenderError.message (e : RenderError) : String :=
  e.cause.describe ++ "\n> " ++ e.context

/-- What a report is about. -/
structure Subject where
  /-- The path of the main source. -/
  source : String
  notesName : String
  dataName : String
  profile : Profile

namespace Subject

/-- What stands at the head of the subject's annotated sources. -/
def provenance (s : Subject) : Provenance where
  notesName := s.notesName
  dataName := s.dataName
  runs := s.profile.runs
  programs := s.profile.programs

end Subject

namespace Render

/-! ## Texts -/

/-- The summaries of the functions that start in a file. -/
def functionSummaries (options : Options) (p : Profile) (group : FileGroup) : List String :=
  (group.starting p).flatMap fun f =>
    s!"Function '{Symbol.shown options f.name}'" :: (Summary.ofFlow f.flow).toLines options ++ [""]

/-- **The summary of a file,** and the name of its report if it is announced. -/
def summaryText (options : Options) (p : Profile) (group : FileGroup) (created : Option String) :
    String :=
  Text.unlines
    ((if options.functionSummaries then functionSummaries options p group else []) ++
      s!"File '{group.display}'" :: (Summary.ofFile p group).toLines options ++
      (created.map fun name => s!"Creating '{name}'").toList ++ [""])

/-- The path of a report file. -/
def reportPath (directory name : String) : String :=
  String.ofList (Path.join directory.toList name.toList)

/-! ## Effects -/

variable {m : Type → Type} [Monad m] [Environment m]

/-- A source's lines. A source that cannot be read has none, and a diagnostic. -/
def readSource (path : String) : m (List String) := do
  match ← Environment.load path with
  | .ok bytes => return Text.lines (Utf8.decode bytes)
  | .error e =>
    Environment.diagnose (Text.line s!"{path}: {e.text}")
    return []

/-- A report written to a file of the output directory. -/
def saveReport (directory name text : String) : m (Except RenderError Unit) := do
  let path := reportPath directory name
  Environment.debug .report s!"Writing '{path}'"
  match ← Environment.save path text with
  | .ok () => return .ok ()
  | .error cause => return .error { cause, context := s!"unable to write '{path}'" }

/-- A report written to standard output. -/
def emitReport (text : String) : m (Except RenderError Unit) := do
  match ← Environment.emit text with
  | .ok () => return .ok ()
  | .error cause => return .error { cause, context := "unable to write coverage report" }

/-- A text written to standard output as well as can be. -/
def tell (text : String) : m Unit := do
  let _ ← Environment.emit text

/-- A report, where the options want it. -/
def deliver (options : Options) (directory name text : String) : m (Except RenderError Unit) :=
  if options.useStdout then emitReport text else saveReport directory name text

/-- The report on one file, unless there is to be no output. -/
def reportFile (options : Options) (directory : String) (subject : Subject) (group : FileGroup) :
    m (Except RenderError Unit) :=
  if options.noOutput then return .ok ()
  else do
    let source ← readSource group.path
    deliver options directory (OutputName.ofFile options subject.source group.path)
      (Annotated.text options subject.profile group source subject.provenance)

/-- **The report and summary of one file.** -/
def renderFile (options : Options) (directory : String) (subject : Subject) (group : FileGroup) :
    m (Except RenderError Unit) := do
  match ← reportFile options directory subject group with
  | .error e => return .error e
  | .ok () =>
    if options.useStdout then return .ok ()
    let name := OutputName.ofFile options subject.source group.path
    tell (summaryText options subject.profile group (if options.noOutput then none else some name))
    return .ok ()

/-- Files one after the other, until a report cannot be written. -/
def renderFiles (options : Options) (directory : String) (subject : Subject) :
    List FileGroup → m (Except RenderError Unit)
  | [] => return .ok ()
  | group :: groups => do
    match ← renderFile options directory subject group with
    | .error e => return .error e
    | .ok () => renderFiles options directory subject groups

/-- The summaries of some files. -/
def tellSummaries (options : Options) (p : Profile) : List FileGroup → m Unit
  | [] => return ()
  | group :: groups => do
    tell (summaryText options p group none)
    tellSummaries options p groups

/-- **All files in the intermediate format.** -/
def renderIntermediate (options : Options) (directory : String) (subject : Subject)
    (groups : List FileGroup) : m (Except RenderError Unit) := do
  if !options.useStdout then tellSummaries options subject.profile groups
  if options.noOutput then return .ok ()
  let name := OutputName.ofFile options subject.source subject.source
  match ← deliver options directory name (Intermediate.text options subject.profile groups) with
  | .error e => return .error e
  | .ok () =>
    if !options.useStdout then tell (Text.unlines [s!"Creating '{name}'", ""])
    return .ok ()

/-- **The report on one main source,** its files going to a directory. -/
def report (directory : String) (options : Options) (subject : Subject) :
    m (Except RenderError Unit) := do
  let groups := subject.profile.fileGroups options
  Environment.debug .report s!"Rendering {groups.length} file(s) covered by '{subject.source}'"
  if options.intermediateFormat then renderIntermediate options directory subject groups
  else renderFiles options directory subject groups

end Render

end ArcCoverage
