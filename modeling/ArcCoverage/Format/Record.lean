/-
# Records

After the magic, a version word and a stamp word, a file is a sequence of records:

| part | words |
| --- | ---: |
| tag | 1 |
| payload length in words | 1 |
| payload | as many as the length says |

A zero tag, or the end of the file between two records, ends the sequence. `Record.all` cuts a file
into its records without looking into them; a file that stops inside one has the records before it
and a shortage at the end.
-/
import ArcCoverage.Format.Cursor

namespace ArcCoverage

/-- A tagged piece of a file. -/
structure Record where
  /-- Where its tag stands in the file. -/
  offset : Nat
  tag : UInt32
  /-- The length of the payload. -/
  words : UInt32
  payload : Cursor
  deriving DecidableEq, Repr

/-- What the tag of a record says about its payload. -/
inductive RecordKind where
  | function
  | blocks
  | arcs
  | lines
  | arcCounters
  | objectSummary
  | programSummary
  deriving DecidableEq, Repr

namespace RecordKind

/-- The tag of a kind. -/
def tag : RecordKind → UInt32
  | .function => 0x01000000
  | .blocks => 0x01410000
  | .arcs => 0x01430000
  | .lines => 0x01450000
  | .arcCounters => 0x01a10000
  | .objectSummary => 0xa1000000
  | .programSummary => 0xa3000000

end RecordKind

/-- A file cut into records: those that are complete, and the shortage that ends it, if any. -/
structure Framing where
  records : List Record
  shortage : Option Shortage
  deriving DecidableEq, Repr

/-- A framing with one more record in front. -/
def Framing.cons (r : Record) (f : Framing) : Framing := { f with records := r :: f.records }

namespace Record

/-- The next record, or nothing at a zero tag. -/
def next : Read (Option Record) := fun c =>
  let read : Read (Option Record) := do
    let tag ← Read.word
    if tag = 0 then return none
    let words ← Read.word
    let payload ← Read.record words
    return some { offset := c.position, tag, words, payload }
  read c

/-- Records until the end, at most `fuel` of them. -/
def collect : Nat → Cursor → Framing
  | 0, _ => ⟨[], none⟩
  | fuel + 1, c =>
    if c.atEnd then ⟨[], none⟩
    else
      match next c with
      | .ok none _ => ⟨[], none⟩
      | .ok (some r) c' => (collect fuel c').cons r
      | .error e _ => ⟨[], some e⟩

/-- **All records from a cursor on.** Each takes at least eight bytes, so there are no more than
there are bytes. -/
def all (c : Cursor) : Framing := collect c.rest.length c

end Record

end ArcCoverage
