/-
# Profiles

A profile is what is known of one compiled source: the flow graphs of its functions, from a notes
file, and how often they ran, from any number of data files.
-/
import ArcCoverage.Profile.Routine

namespace ArcCoverage

/-- The functions of a compiled source with their counts. -/
structure Profile where
  /-- The version of the notes; there is none before they are loaded. -/
  version : Option Version := none
  stamp : UInt32 := 0
  files : FileTable := {}
  routines : List Routine := []
  runs : Tally := 0
  programs : Tally := 0
  deriving DecidableEq, Repr

/-- A record that a reader does not know and passes over. -/
structure SkippedRecord where
  tag : UInt32
  offset : Nat
  deriving DecidableEq, Repr

/-- What came of reading a file into a profile. -/
structure Loading where
  /-- The profile afterwards. -/
  profile : Profile
  /-- Why the file was refused; nothing if it was accepted. -/
  failure : Option ReadError
  /-- The records passed over before the end or the failure. -/
  skipped : List SkippedRecord
  deriving DecidableEq, Repr

/-- Steps over a list until one of them fails; the state before that step is kept. -/
def runSteps {σ ε α : Type} (step : σ → α → Except ε σ) : σ → List α → σ × Option ε
  | s, [] => (s, none)
  | s, a :: as =>
    match step s a with
    | .ok s' => runSteps step s' as
    | .error e => (s, some e)

/-- Steps over the records of a file. A shortage at its end counts after all records before it. -/
def Framing.run {σ : Type} (f : Framing) (step : σ → Record → Except ReadError σ) (s : σ) :
    σ × Option ReadError :=
  match runSteps step s f.records with
  | (s, some e) => (s, some e)
  | (s, none) => (s, f.shortage.map .shortage)

/-- A cursor behind the magic of a file of a kind. -/
def openFile (kind : FileKind) (otherwise : ReadError) (bytes : List UInt8) :
    Except ReadError Cursor :=
  match sniff bytes with
  | none => .error .unknownMagic
  | some (k, order) =>
    if k = kind then .ok { order, position := 4, rest := bytes.drop 4 } else .error otherwise

end ArcCoverage
