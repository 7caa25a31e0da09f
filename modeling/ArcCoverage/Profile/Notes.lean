/-
# Notes files

A notes file brings the functions of a profile. After the header (magic, version, stamp) its records
are taken in order:

| record | before the first function | later |
| --- | --- | --- |
| function | begins it | begins the next |
| blocks, arcs, lines | refused | completes the function begun last |
| any other | passed over silently | passed over |

`Profile.readNotes` changes the profile only if the whole file is accepted, and then solves every
flow graph.
-/
import ArcCoverage.Profile.Basic

namespace ArcCoverage

/-- What the records of a notes file have told so far. -/
structure NotesProgress where
  files : FileTable := {}
  /-- The functions before the current one. -/
  finished : List Routine := []
  /-- The function begun last. -/
  current : Option Routine := none
  skipped : List SkippedRecord := []
  deriving DecidableEq, Repr

namespace NotesProgress

/-- All functions so far. -/
def routines (p : NotesProgress) : List Routine := p.finished ++ p.current.toList

/-- A function record. -/
def addFunction (v : Version) (p : NotesProgress) (r : Record) : Except ReadError NotesProgress := do
  let read ← Decode.result (FunctionRecord.read v) r.payload
  let (file, files) := p.files.intern read.file
  return { p with files, finished := p.routines, current := some (.ofRecord read file) }

/-- Whether a tag belongs to a record that completes a function. -/
def completesFunction (tag : UInt32) : Bool :=
  tag == RecordKind.blocks.tag || tag == RecordKind.arcs.tag || tag == RecordKind.lines.tag

/-- A record that may complete the current function. -/
def addToFunction (p : NotesProgress) (f : Routine) (r : Record) : Except ReadError NotesProgress :=
  if r.tag = RecordKind.blocks.tag then do
    let f ← f.setBlockCount r.words.toNat
    return { p with current := some f }
  else if r.tag = RecordKind.arcs.tag then do
    let f ← Decode.result (f.readArcs r.words) r.payload
    return { p with current := some f }
  else if r.tag = RecordKind.lines.tag then do
    let (f, files) ← Decode.result (f.readLines p.files) r.payload
    return { p with files, current := some f }
  else .ok { p with skipped := p.skipped ++ [⟨r.tag, r.offset⟩] }

/-- **The next record.** -/
def step (v : Version) (p : NotesProgress) (r : Record) : Except ReadError NotesProgress :=
  if r.tag = RecordKind.function.tag then p.addFunction v r
  else
    match p.current with
    | some f => p.addToFunction f r
    | none => if completesFunction r.tag then .error (.beforeFunction r.tag r.offset) else .ok p

end NotesProgress

namespace Profile

/-- The version and stamp of a notes file. -/
def notesHeader : Decode (Version × UInt32) := do
  let version ← Decode.version
  let stamp ← Read.word
  return (version, stamp)

/-- The header of a notes file, and a cursor behind it. -/
def openNotes (p : Profile) (bytes : List UInt8) :
    Except ReadError ((Version × UInt32) × Cursor) := do
  if p.version.isSome then throw .notesLoaded
  let c ← openFile .notes .notNotes bytes
  match notesHeader c with
  | .ok header c => return (header, c)
  | .error e _ => throw e

/-- **A notes file, read into a profile that has none yet.** -/
def readNotes (p : Profile) (bytes : List UInt8) : Loading :=
  match p.openNotes bytes with
  | .error e => { profile := p, failure := some e, skipped := [] }
  | .ok ((version, stamp), c) =>
    let (progress, failure) := (Record.all c).run (NotesProgress.step version) {}
    match failure with
    | some e => { profile := p, failure := some e, skipped := progress.skipped }
    | none =>
      { profile :=
          { p with
            version := some version
            stamp
            files := progress.files
            routines := progress.routines.map Routine.solve }
        failure := none
        skipped := progress.skipped }

end Profile

end ArcCoverage
