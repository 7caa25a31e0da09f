/-
# Reports on profiles

The protocol of a source's report, with profiles for coverage and gcov's formats for the report.
-/
import ArcCoverage.Profile.Data
import ArcCoverage.Profile.Listing
import ArcCoverage.Profile.Notes
import ArcCoverage.Report.Render
import ArcCoverage.SourceReport

namespace ArcCoverage

/-- The log entry of a record that was passed over. -/
def SkippedRecord.entry (kind : FileKind) (r : SkippedRecord) : LogEntry :=
  let noun :=
    match kind with
    | .notes => "notes"
    | .data => "data"
  ⟨.trace, .format, s!"Skipping {noun} record {Text.hexWord r.tag} at offset {r.offset}"⟩

namespace Loading

/-- The log entry of notes that were read. -/
def readEntry (l : Loading) : List LogEntry :=
  match l.failure, l.profile.version with
  | none, some v =>
    [⟨.debug, .format, s!"Read {l.profile.routines.length} functions from gcov {v.text} notes"⟩]
  | _, _ => []

/-- What a notes file brought, and what the log says of it. -/
def ofNotes (l : Loading) : Intake Profile where
  store := l.profile
  failure := l.failure.map ReadError.message
  log := l.skipped.map (SkippedRecord.entry .notes) ++ l.readEntry

/-- What a data file brought, and what the log says of it. -/
def ofData (l : Loading) : Intake Profile where
  store := l.profile
  failure := l.failure.map ReadError.message
  log := l.skipped.map (SkippedRecord.entry .data)

end Loading

instance : CoverageStore Profile where
  empty := {}
  readNotes p bytes := (p.readNotes bytes).ofNotes
  readData p bytes := (p.readData bytes).ofData
  looksLikeData := hasDataMagic
  listing := Profile.listing

namespace ProfileReport

variable {m : Type → Type} [Monad m] [Environment m]

/-- Reports in gcov's formats, their files going to a directory. -/
def renderer (directory : String) : Renderer m Profile :=
  fun options source notesName dataName profile => do
    match ← Render.report directory options { source, notesName, dataName, profile } with
    | .ok () => return .ok ()
    | .error e => return .error e.message

/-- **The report on one source.** -/
def run (directory : String) (settings : Settings) (options : Options) (source : String) :
    m Outcome :=
  SourceReport.run (renderer directory) settings options source

end ProfileReport

end ArcCoverage
