/-
# Reporting on one source

One source is reported on in stages:

| stage | on failure |
| --- | --- |
| resolving paths | |
| loading notes | the source is given up |
| validating notes | the source is given up |
| loading data | a missing file counts as no execution; else the source is given up |
| validating data | a diagnostic; the report shows no execution |
| reporting | the source is given up |

The protocol knows coverage only as a `CoverageStore` and reports only as a `Renderer`, so what it
promises holds for every choice of both.
-/
import ArcCoverage.Artifact.Load
import ArcCoverage.Artifact.Name
import ArcCoverage.Report.Options

namespace ArcCoverage

/-- What came of reading a file into a store. -/
structure Intake (G : Type) where
  /-- The store afterwards. -/
  store : G
  /-- Why the file was refused; nothing if it was accepted. -/
  failure : Option String
  log : List LogEntry

/-- Coverage that is read from a notes file and then, perhaps, from a data file. -/
class CoverageStore (G : Type) where
  empty : G
  readNotes : G → List UInt8 → Intake G
  readData : G → List UInt8 → Intake G
  /-- Whether a file starts as a data file does. -/
  looksLikeData : List UInt8 → Bool
  listing : G → String

/-- Writes a report on a source, given the names of its notes and data and what they told. -/
abbrev Renderer (m : Type → Type) (G : Type) :=
  Options → (source notesName dataName : String) → G → m (Except String Unit)

/-- Where the artifacts of a source are, and whether what they told is listed. -/
structure Settings where
  /-- The place of the object files; empty if they are beside the sources. -/
  objectPath : String := ""
  /-- The name of the notes file, if it is given. -/
  notesName : Option String := none
  /-- The name of the data file, if it is given. -/
  dataName : Option String := none
  /-- List what the artifacts told among the diagnostics. -/
  dump : Bool := false
  deriving DecidableEq, Repr

/-- The stages of a report. -/
inductive Stage where
  | resolvingPaths
  | loadingNotes
  | validatingNotes
  | loadingData
  | validatingData
  | reporting
  deriving DecidableEq, Repr

/-- A stage as it is shown. -/
def Stage.label : Stage → String
  | resolvingPaths => "ResolvingPaths"
  | loadingNotes => "LoadingNotes"
  | validatingNotes => "ValidatingNotes"
  | loadingData => "LoadingData"
  | validatingData => "ValidatingData"
  | reporting => "Reporting"

/-- How a report ended. -/
inductive Outcome where
  | done
  | failed (stage : Stage)
  deriving DecidableEq, Repr

namespace SourceReport

variable {m : Type → Type} [Monad m] [Environment m] {G : Type} [CoverageStore G]

/-- A stage announced in the log. -/
def announce (stage : Stage) (name : String) : m Unit :=
  Environment.debug .source s!"{stage.label} '{name}'"

/-- Log entries made one after the other. -/
def noteAll : List LogEntry → m Unit
  | [] => return ()
  | entry :: entries => do
    Environment.note entry
    noteAll entries

/-- A file that was refused. -/
def reject (kind : FileKind) (name reason : String) : m Unit := do
  let (noun, diagnostic) :=
    match kind with
    | .notes => ("notes", "Invalid .gcno File!")
    | .data => ("data", "Invalid .gcda File!")
  Environment.debug .source s!"Rejected {noun} file '{name}': {reason}"
  Environment.diagnose (Text.line diagnostic)

/-- The names of a source's notes and data files. -/
def resolve (settings : Settings) (source : String) : m (String × String) := do
  Environment.debug .source s!"{Stage.resolvingPaths.label} for '{source}'"
  let place ← ObjectPlace.classify settings.objectPath
  let stem := place.stem source
  return (artifactName stem settings.notesName .notes, artifactName stem settings.dataName .data)

/-- **The store that the notes fill,** or the stage that failed. -/
def takeNotes (name : String) : m (Except Stage G) := do
  announce .loadingNotes name
  match ← Artifact.load name with
  | .error e =>
    Environment.diagnose (Text.line s!"{name}: {e.text}")
    return .error .loadingNotes
  | .ok bytes =>
    let intake := CoverageStore.readNotes (CoverageStore.empty : G) bytes
    noteAll intake.log
    match intake.failure with
    | some reason =>
      reject .notes name reason
      return .error .validatingNotes
    | none => return .ok intake.store

/-- **A store with a data file's counts,** if the file has the form of one and is accepted. -/
def validateData (store : G) (name : String) (bytes : List UInt8) : m G := do
  announce .validatingData name
  if !CoverageStore.looksLikeData G bytes then
    Environment.diagnose (Text.line s!"{name}:not a gcov data file")
    return store
  let intake := CoverageStore.readData store bytes
  noteAll intake.log
  match intake.failure with
  | some reason => reject .data name reason
  | none => pure ()
  return intake.store

/-- **The store with the data's counts,** and the name that the report shows for the data. -/
def takeData (store : G) (name : String) : m (Except Stage (G × String)) := do
  announce .loadingData name
  match ← Artifact.load name with
  | .ok bytes => return .ok (← validateData store name bytes, name)
  | .error e =>
    if e.isNotFound then
      Environment.info .source s!"No data file '{name}', reporting zero execution"
      return .ok (store, Artifact.inputName)
    else
      Environment.diagnose (Text.line s!"{name}: {e.text}")
      return .error .loadingData

/-- The report itself. -/
def finish (render : Renderer m G) (settings : Settings) (options : Options)
    (source notesName dataName : String) (store : G) : m Outcome := do
  if settings.dump then Environment.diagnose (CoverageStore.listing store)
  announce .reporting source
  match ← render options source notesName dataName store with
  | .ok () => return .done
  | .error reason =>
    Environment.diagnose (Text.line s!"{source}: {reason}")
    return .failed .reporting

/-- **The report on one source.** -/
def run (render : Renderer m G) (settings : Settings) (options : Options) (source : String) :
    m Outcome := do
  let (notesName, dataName) ← resolve settings source
  match ← takeNotes (G := G) notesName with
  | .error stage => return .failed stage
  | .ok store =>
    match ← takeData store dataName with
    | .error stage => return .failed stage
    | .ok (store, dataName) => finish render settings options source notesName dataName store

end SourceReport

end ArcCoverage
