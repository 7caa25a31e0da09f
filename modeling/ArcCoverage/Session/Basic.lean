/-
# Sessions

A session is a run's surroundings as a value: the disk, what is left on standard input, what was
written to standard output, and a journal of diagnostics and log entries in the order in which they
were made. The effects of a run are functions on it.
-/
import ArcCoverage.Session.Environment
import ArcCoverage.Storage.Disk

namespace ArcCoverage

/-- What was written to standard error. -/
inductive JournalItem where
  | diagnostic (text : String)
  | logged (entry : LogEntry)
  deriving DecidableEq, Repr

/-- The surroundings of a run. -/
structure Session where
  disk : Disk := {}
  /-- What standard input gives, or why it cannot be read. -/
  input : Except SystemError (List UInt8) := .ok []
  /-- Why standard output cannot be written; nothing if it can. -/
  outputFault : Option SystemError := none
  output : String := ""
  journal : List JournalItem := []

namespace Session

/-- Standard input read to its end. A failure stays. -/
def takeInput (s : Session) : Except SystemError (List UInt8) × Session :=
  match s.input with
  | .ok bytes => (.ok bytes, { s with input := .ok [] })
  | .error e => (.error e, s)

/-- A text written to standard output. Nothing is written of an empty text, which cannot fail. -/
def emit (s : Session) (text : String) : Except SystemError Unit × Session :=
  match s.outputFault with
  | some e => if text.isEmpty then (.ok (), s) else (.error e, s)
  | none => (.ok (), { s with output := s.output ++ text })

/-- A file created or replaced. -/
def save (s : Session) (path text : String) : Except SystemError Unit × Session :=
  match s.disk.write path.toList (Utf8.encode text) with
  | .ok disk => (.ok (), { s with disk })
  | .error e => (.error e, s)

/-- One more item in the journal. -/
def record (s : Session) (item : JournalItem) : Session := { s with journal := s.journal ++ [item] }

instance : Environment (StateM Session) where
  load path := fun s => (s.disk.read path.toList, s)
  isDirectory path := fun s => (s.disk.isDirectory path.toList, s)
  save path text := fun s => s.save path text
  takeInput := takeInput
  emit text := fun s => s.emit text
  diagnose text := fun s => ((), s.record (.diagnostic text))
  note entry := fun s => ((), s.record (.logged entry))

/-- An item of the journal as it is written; log entries are left out if there is no setting. -/
def shownItem (setting : Option LogLevel) : JournalItem → String
  | .diagnostic text => text
  | .logged entry =>
    match setting with
    | none => ""
    | some level => entry.shown level

/-- **What standard error shows** at a log setting. -/
def errorText (s : Session) (setting : Option LogLevel) : String :=
  String.join (s.journal.map (shownItem setting))

end Session

end ArcCoverage
