/-
# Why a file is refused

One constructor for every reason for which a notes or data file is not read, and `ReadError.message`
with its wording.
-/
import ArcCoverage.Format.Cursor
import ArcCoverage.Format.Version
import ArcCoverage.Text.Layout

namespace ArcCoverage

/-- Why a notes or data file is refused. -/
inductive ReadError where
  /-- The file, or a record, ends too early. -/
  | shortage (s : Shortage)
  | unknownMagic
  | unsupportedVersion (version : Version)
  /-- A profile takes one notes file. -/
  | notesLoaded
  | notNotes
  /-- A record of a function's parts before the first function. -/
  | beforeFunction (tag : UInt32) (offset : Nat)
  | blocksTwice (function : String)
  | noSuchBlock (function : String) (block : UInt32) (blocks : Nat)
  /-- A data file needs the notes first. -/
  | notesMissing
  | notData
  | otherVersion (notes data : Version)
  | otherStamp (notes data : UInt32)
  | unknownFunction (ident : UInt32)
  | otherLineChecksum (function : String)
  | otherFlowChecksum (function : String)
  | countersBeforeFunction (offset : Nat)
  | counterMismatch (function : String) (expected found : Nat)
  deriving DecidableEq, Repr

namespace ReadError

/-- The wording of a reason. -/
def message : ReadError → String
  | shortage s => s!"unexpected end of file at offset {s.position} (wanted {s.wanted} bytes)"
  | unknownMagic => "not a gcov file: unrecognized magic"
  | unsupportedVersion v => s!"unsupported gcov version '{v.tagText}'"
  | notesLoaded => "notes already loaded"
  | notNotes => "expected a notes file but found a data file"
  | beforeFunction tag offset =>
    s!"record {Text.hexWord tag} at offset {offset} precedes any function"
  | blocksTwice f => s!"duplicate blocks record for function '{f}'"
  | noSuchBlock f b n => s!"function '{f}' references block {b} but has only {n} blocks"
  | notesMissing => "data file read before any notes file"
  | notData => "expected a data file but found a notes file"
  | otherVersion notes data =>
    s!"version mismatch: notes are gcov {notes.text}, data is gcov {data.text}"
  | otherStamp notes data =>
    s!"stamp mismatch: notes have {Text.hexWord notes}, data has {Text.hexWord data}"
  | unknownFunction ident => s!"data file references unknown function {ident}"
  | otherLineChecksum f => s!"line checksum mismatch for function '{f}'"
  | otherFlowChecksum f => s!"cfg checksum mismatch for function '{f}'"
  | countersBeforeFunction offset => s!"arc counters at offset {offset} precede any function"
  | counterMismatch f expected found =>
    s!"function '{f}' expects {expected} arc counters but the data file has {found}"

end ReadError

/-- Reading that may also refuse what it reads. -/
abbrev Decode := EStateM ReadError Cursor

namespace Decode

/-- A plain read, whose only failure is a shortage. -/
def ofRead {α : Type} (read : Read α) : Decode α := fun c =>
  match read c with
  | .ok a c' => .ok a c'
  | .error s c' => .error (.shortage s) c'

instance : MonadLift Read Decode where
  monadLift := ofRead

/-- Goes on only if a condition holds. -/
def require (condition : Bool) (otherwise : ReadError) : Decode Unit :=
  if condition then return () else throw otherwise

/-- What decoding from a cursor gives. -/
def result {α : Type} (decode : Decode α) (c : Cursor) : Except ReadError α :=
  match decode c with
  | .ok a _ => .ok a
  | .error e _ => .error e

/-- A version whose layout is known. -/
def version : Decode Version := do
  let v := Version.ofWord (← Read.word)
  require v.isSupported (.unsupportedVersion v)
  return v

end Decode

end ArcCoverage
