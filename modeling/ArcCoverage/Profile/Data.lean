/-
# Data files

A data file adds to the counts of a profile. Its header must name the version and stamp of the
notes. Its records are taken in order:

| record | effect |
| --- | --- |
| function, empty | no function is current |
| function | the one with this ident and these checksums becomes current |
| arc counters | counters for the current function |
| object summary, three words or more | its third word is the number of runs |
| program summary | one more program |
| any other | passed over |

The counters are kept aside until the whole file is accepted; only then are they added, and every
flow graph solved again.

Program summaries are counted without a limit, though a word is meant to count them: a file with 2^32 or
more of them lies outside this model.
-/
import ArcCoverage.Profile.Basic

namespace ArcCoverage

/-- Counters that are to be added to a function. -/
structure Addition where
  /-- The number of the function in the profile. -/
  routine : Nat
  counters : List Count
  deriving DecidableEq, Repr

/-- What the records of a data file have told so far. -/
structure DataProgress where
  current : Option Nat := none
  additions : List Addition := []
  runs : UInt32 := 0
  programs : Nat := 0
  skipped : List SkippedRecord := []
  deriving DecidableEq, Repr

namespace Profile

/-- The number of the last function with an ident. -/
def lastWithIdent (ident : UInt32) : List Routine → Option Nat
  | [] => none
  | f :: fs =>
    match lastWithIdent ident fs with
    | some i => some (i + 1)
    | none => if f.ident = ident then some 0 else none

/-- The function that a data file's function record names. -/
def readSelection (p : Profile) (v : Version) (words : UInt32) : Decode Nat := do
  let ident ← Read.word
  match lastWithIdent ident p.routines with
  | none => throw (.unknownFunction ident)
  | some i =>
    match p.routines[i]? with
    | none => throw (.unknownFunction ident)
    | some f =>
      let lineChecksum ← Read.word
      Decode.require (lineChecksum == f.lineChecksum) (.otherLineChecksum f.name)
      if v.hasFlowChecksum && words ≥ 3 then
        let flowChecksum ← Read.word
        Decode.require (flowChecksum == f.flowChecksum) (.otherFlowChecksum f.name)
      return i

/-- The counters of a function, which must be as many as it has instrumented arcs. -/
def readCounters (f : Routine) (words : UInt32) : Decode (List Count) := do
  let counters ← Read.replicate Read.counter (words.toNat / 2)
  Decode.require (counters.length == f.flow.instrumentedCount)
    (.counterMismatch f.name f.flow.instrumentedCount counters.length)
  return counters

/-- The number of runs in an object summary. -/
def readRuns : Read UInt32 := do
  let _ ← Read.word
  let _ ← Read.word
  Read.word

/-- **The next record.** -/
def dataStep (p : Profile) (v : Version) (d : DataProgress) (r : Record) :
    Except ReadError DataProgress :=
  if r.tag = RecordKind.function.tag then
    if r.words = 0 then .ok { d with current := none }
    else do
      let i ← Decode.result (p.readSelection v r.words) r.payload
      return { d with current := some i }
  else if r.tag = RecordKind.arcCounters.tag then
    match d.current.bind fun i => (p.routines[i]?).map (i, ·) with
    | none => .error (.countersBeforeFunction r.offset)
    | some (i, f) => do
      let counters ← Decode.result (readCounters f r.words) r.payload
      return { d with additions := d.additions ++ [⟨i, counters⟩] }
  else if r.tag = RecordKind.objectSummary.tag && r.words ≥ 3 then do
    let runs ← Decode.result (Decode.ofRead readRuns) r.payload
    return { d with runs }
  else if r.tag = RecordKind.programSummary.tag then .ok { d with programs := d.programs + 1 }
  else .ok { d with skipped := d.skipped ++ [⟨r.tag, r.offset⟩] }

/-- The header of a data file, compared with the notes. -/
def dataHeader (p : Profile) (v : Version) : Decode Unit := do
  let version ← Decode.version
  Decode.require (version == v) (.otherVersion v version)
  let stamp ← Read.word
  Decode.require (stamp == p.stamp) (.otherStamp p.stamp stamp)

/-- The version of the notes, and a cursor behind the header of a data file. -/
def openData (p : Profile) (bytes : List UInt8) : Except ReadError (Version × Cursor) := do
  let some v := p.version | throw .notesMissing
  let c ← openFile .data .notData bytes
  match p.dataHeader v c with
  | .ok () c => return (v, c)
  | .error e _ => throw e

/-- One function's counters added. -/
def add (routines : List Routine) (a : Addition) : Except ReadError (List Routine) :=
  match routines[a.routine]? with
  | none => .ok routines
  | some f => do
    let f ← f.addCounters a.counters
    return routines.set a.routine f

/-- **Counters added one after the other,** until one of them does not fit its function. -/
def addAll (p : Profile) (additions : List Addition) : Profile × Option ReadError :=
  let (routines, failure) := runSteps add p.routines additions
  ({ p with routines }, failure)

/-- The profile with every flow graph solved and the summaries counted. -/
def finish (p : Profile) (d : DataProgress) : Profile :=
  { p with
    routines := p.routines.map Routine.solve
    runs := p.runs.plus d.runs.toNat
    programs := p.programs.plus d.programs }

/-- **A data file, added to a profile.** -/
def readData (p : Profile) (bytes : List UInt8) : Loading :=
  match p.openData bytes with
  | .error e => { profile := p, failure := some e, skipped := [] }
  | .ok (v, c) =>
    let (progress, failure) := (Record.all c).run (p.dataStep v) {}
    match failure with
    | some e => { profile := p, failure := some e, skipped := progress.skipped }
    | none =>
      match p.addAll progress.additions with
      | (p, some e) => { profile := p, failure := some e, skipped := progress.skipped }
      | (p, none) =>
        { profile := p.finish progress, failure := none, skipped := progress.skipped }

end Profile

end ArcCoverage
