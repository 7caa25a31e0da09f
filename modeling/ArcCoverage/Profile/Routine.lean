/-
# Functions and what notes say about them

A `Routine` is a compiled function: what identifies it, where it starts, and its flow graph. Four
records of a notes file make one up:

| record | payload |
| --- | --- |
| function | ident, line checksum, flow checksum (from 4.7 on), name, file, start line |
| blocks | one word for each block |
| arcs | source block, then destination and flags of each arc |
| lines | block, then items: a line number, or a zero word and a file name; an empty name ends it |

Lines belong to the file named last, and to the function's own file before that.
-/
import ArcCoverage.Flow.Solve
import ArcCoverage.Format.Draft
import ArcCoverage.Profile.Error
import ArcCoverage.Profile.FileTable

namespace ArcCoverage

/-- A function of the program. -/
structure Routine where
  ident : UInt32
  lineChecksum : UInt32
  flowChecksum : UInt32
  name : String
  /-- The number of the file it starts in. -/
  file : Nat
  startLine : Nat
  flow : FlowGraph := {}
  deriving DecidableEq, Repr

/-- The payload of a function record. -/
structure FunctionRecord where
  ident : UInt32
  lineChecksum : UInt32
  flowChecksum : UInt32
  name : String
  file : String
  startLine : UInt32
  deriving DecidableEq, Repr

/-- A function record's payload, read. -/
def FunctionRecord.read (v : Version) : Read FunctionRecord := do
  let ident ← Read.word
  let lineChecksum ← Read.word
  let flowChecksum ← if v.hasFlowChecksum then Read.word else pure 0
  let name ← Read.string
  let file ← Read.string
  let startLine ← Read.word
  return { ident, lineChecksum, flowChecksum, name, file, startLine }

/-- A piece of a lines record. -/
inductive LineItem where
  | line (number : UInt32)
  | file (name : String)
  deriving DecidableEq, Repr

/-- Items up to the empty name, at most `fuel` of them. -/
def LineItem.readSome : Nat → Read (List LineItem)
  | 0 => return []
  | fuel + 1 => do
    let number ← Read.word
    if number != 0 then
      return .line number :: (← readSome fuel)
    let name ← Read.string
    if name.isEmpty then return []
    return .file name :: (← readSome fuel)

/-- **The items of a lines record.** Each takes at least four bytes. -/
def LineItem.readAll : Read (List LineItem) := fun c => readSome (c.rest.length + 1) c

namespace Routine

/-- A function without blocks. -/
def ofRecord (r : FunctionRecord) (file : Nat) : Routine where
  ident := r.ident
  lineChecksum := r.lineChecksum
  flowChecksum := r.flowChecksum
  name := r.name
  file
  startLine := r.startLine.toNat

/-- The number of blocks. -/
def blockCount (f : Routine) : Nat := f.flow.blocks.length

/-- **Blocks are set once.** -/
def setBlockCount (f : Routine) (count : Nat) : Except ReadError Routine :=
  if f.flow.blocks.isEmpty then .ok { f with flow := { f.flow with blocks := List.replicate count {} } }
  else .error (.blocksTwice f.name)

/-- The refusal of a block number that is not below the number of blocks. -/
def requireBlock (f : Routine) (block : UInt32) : Decode Unit :=
  Decode.require (block.toNat < f.blockCount) (.noSuchBlock f.name block f.blockCount)

/-- Arcs from one block, at most as many as the record has room for. -/
def readArcsFrom (source : Nat) : Nat → Routine → Decode Routine
  | 0, f => return f
  | n + 1, f => do
    let destination ← Read.word
    f.requireBlock destination
    let flags ← Read.word
    readArcsFrom source n { f with flow := f.flow.addArc source destination.toNat flags }

/-- **An arcs record of a number of words.** -/
def readArcs (f : Routine) (words : UInt32) : Decode Routine := do
  let source ← Read.word
  f.requireBlock source
  readArcsFrom source.toNat ((words.toNat - 1) / 2) f

/-- Items put on a block, from a current file on. -/
def addItems (block : Nat) : Nat → List LineItem → Routine → FileTable → Routine × FileTable
  | _, [], f, files => (f, files)
  | file, .line number :: items, f, files =>
    addItems block file items
      { f with flow := f.flow.addLine block ⟨file, number.toNat⟩ } files
  | _, .file name :: items, f, files =>
    let (file, files) := files.intern name
    addItems block file items f files

/-- **A lines record.** -/
def readLines (f : Routine) (files : FileTable) : Decode (Routine × FileTable) := do
  let block ← Read.word
  f.requireBlock block
  let items ← LineItem.readAll
  return addItems block.toNat f.file items f files

/-- **Counters for the instrumented arcs,** as many as there are of them. -/
def addCounters (f : Routine) (counters : List Count) : Except ReadError Routine :=
  if counters.length = f.flow.instrumentedCount then
    .ok { f with flow := f.flow.addCounters counters }
  else .error (.counterMismatch f.name f.flow.instrumentedCount counters.length)

/-- The function with all counts that follow. -/
def solve (f : Routine) : Routine := { f with flow := f.flow.solve }

end Routine

end ArcCoverage
