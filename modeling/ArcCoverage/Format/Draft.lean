/-
# Composing coverage files

A draft is a notes or data file that is still symbolic: records whose payloads are words and texts.
`Draft.encode` chooses the bytes, so the byte order may be picked last.

| item | words | bytes |
| --- | ---: | --- |
| `word w` | 1 | `w` in the draft's byte order |
| `text ""` | 1 | a zero word |
| `text s` | 1 + n | the word n = ⌊(bytes of `s` + 4) / 4⌋, then `s` and zero bytes up to 4·n |

A text that is not empty is thus followed by at least one zero byte.

Lengths are counted without a limit, though words are meant to count them as well: texts of 2^32 bytes or
more, and payloads of 2^32 words or more, lie outside this model.
-/
import ArcCoverage.Count
import ArcCoverage.Format.Version
import ArcCoverage.Format.Record

namespace ArcCoverage

/-- A piece of a record's payload. -/
inductive Item where
  | word (w : UInt32)
  | text (s : String)
  deriving DecidableEq, Repr

namespace Item

/-- The words that hold the bytes of a text. -/
def textWords (bytes : List UInt8) : Nat := if bytes.isEmpty then 0 else (bytes.length + 4) / 4

/-- The number of words an item takes. -/
def words : Item → Nat
  | .word _ => 1
  | .text s => 1 + textWords (Utf8.encode s)

/-- The bytes of an item. -/
def encode (order : ByteOrder) : Item → List UInt8
  | .word w => order.encode w
  | .text s =>
    let bytes := Utf8.encode s
    let n := textWords bytes
    order.encode (UInt32.ofNat n) ++ bytes ++ List.replicate (n * 4 - bytes.length) 0

end Item

/-- A record that is still symbolic. -/
structure DraftRecord where
  tag : UInt32
  payload : List Item
  deriving DecidableEq, Repr

namespace DraftRecord

/-- The length of the payload in words. -/
def words (r : DraftRecord) : Nat := r.payload.foldr (fun item n => item.words + n) 0

/-- The bytes of a record. -/
def encode (order : ByteOrder) (r : DraftRecord) : List UInt8 :=
  order.encode r.tag ++ order.encode (UInt32.ofNat r.words) ++ r.payload.flatMap (Item.encode order)

end DraftRecord

/-- A file that is being composed. -/
structure Draft where
  kind : FileKind
  version : Version
  stamp : UInt32 := 0x12345678
  order : ByteOrder := .little
  records : List DraftRecord := []
  deriving DecidableEq, Repr

/-- A destination and flags, as an arcs record lists them. -/
structure ArcSpec where
  destination : UInt32
  flags : UInt32
  deriving DecidableEq, Repr

namespace Draft

/-- An empty notes file. -/
def notes (version : Version) : Draft := { kind := .notes, version }

/-- An empty data file. -/
def data (version : Version) : Draft := { kind := .data, version }

/-- The draft in big-endian byte order. -/
def bigEndian (d : Draft) : Draft := { d with order := .big }

/-- The draft with another stamp. -/
def withStamp (d : Draft) (stamp : UInt32) : Draft := { d with stamp }

/-- Whether records of functions get a second checksum. This looks at the letters alone, so it is
also defined for versions that no reader supports: every major but `4`, and minors from `07` on in
the order of their letters. -/
def hasFlowChecksum (d : Draft) : Bool :=
  d.version.major != 0x34 || d.version.tens > 0x30 || (d.version.tens == 0x30 && d.version.ones ≥ 0x37)

/-- The checksum words of a record of a function. -/
def checksums (d : Draft) (lineChecksum flowChecksum : UInt32) : List Item :=
  if d.hasFlowChecksum then [.word lineChecksum, .word flowChecksum] else [.word lineChecksum]

/-- The draft with one more record. -/
def push (d : Draft) (kind : RecordKind) (payload : List Item) : Draft :=
  { d with records := d.records ++ [⟨kind.tag, payload⟩] }

/-- A function of a notes file. -/
def function (d : Draft) (ident lineChecksum flowChecksum : UInt32) (name file : String)
    (line : UInt32) : Draft :=
  d.push .function
    (.word ident :: d.checksums lineChecksum flowChecksum ++ [.text name, .text file, .word line])

/-- The number of blocks of the function before. -/
def blocks (d : Draft) (count : Nat) : Draft := d.push .blocks (List.replicate count (.word 0))

/-- Arcs that leave one block. -/
def arcs (d : Draft) (source : UInt32) (arcs : List ArcSpec) : Draft :=
  d.push .arcs (.word source :: arcs.flatMap fun a => [.word a.destination, .word a.flags])

/-- Lines of one file that a block covers. -/
def lines (d : Draft) (block : UInt32) (file : String) (lines : List UInt32) : Draft :=
  d.push .lines
    (.word block :: .word 0 :: .text file :: lines.map .word ++ [.word 0, .text ""])

/-- The function of a data file that the counters behind it belong to. -/
def dataFunction (d : Draft) (ident lineChecksum flowChecksum : UInt32) : Draft :=
  d.push .function (.word ident :: d.checksums lineChecksum flowChecksum)

/-- The low and the high word of a counter. -/
def counterItems (c : Count) : List Item :=
  [.word (UInt32.ofNat c.toNat), .word (UInt32.ofNat (c.toNat / UInt32.size))]

/-- Counters of a function's instrumented arcs. -/
def arcCounters (d : Draft) (counters : List Count) : Draft :=
  d.push .arcCounters (counters.flatMap counterItems)

/-- The number of words in either summary. -/
def summaryWords : Nat := 9

/-- A summary with a number of runs. -/
def objectSummary (d : Draft) (runs : UInt32) : Draft :=
  d.push .objectSummary
    (.word 0 :: .word 1 :: .word runs :: List.replicate (summaryWords - 3) (.word 0))

/-- A summary of one program. -/
def programSummary (d : Draft) : Draft :=
  d.push .programSummary (List.replicate summaryWords (.word 0))

/-- **The bytes of the file.** -/
def encode (d : Draft) : List UInt8 :=
  d.kind.magic d.order ++ d.order.encode d.version.toWord ++ d.order.encode d.stamp ++
    d.records.flatMap (DraftRecord.encode d.order)

end Draft

end ArcCoverage
