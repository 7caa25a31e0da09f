/-
# Words and the magic of coverage files

Both file kinds are sequences of 32-bit words in one of two byte orders. The first four bytes tell
kind and order apart:

| first bytes | kind | byte order |
| --- | --- | --- |
| `gcno` | notes | big |
| `oncg` | notes | little |
| `gcda` | data | big |
| `adcg` | data | little |

`sniff_magic` says that the four spellings are read back, `decode_encode` the same of words.
-/

namespace ArcCoverage

/-- Which end of a word comes first. -/
inductive ByteOrder where
  | little
  | big
  deriving DecidableEq, Repr

/-- A word as its four bytes, the lowest first. -/
structure Quad where
  b0 : UInt8
  b1 : UInt8
  b2 : UInt8
  b3 : UInt8
  deriving DecidableEq, Repr

namespace Quad

/-- The word that four bytes stand for. -/
def toWord (q : Quad) : UInt32 :=
  UInt32.ofNat (q.b0.toNat + 256 * (q.b1.toNat + 256 * (q.b2.toNat + 256 * q.b3.toNat)))

/-- The four bytes of a word. -/
def ofWord (w : UInt32) : Quad where
  b0 := UInt8.ofNat w.toNat
  b1 := UInt8.ofNat (w.toNat / 256)
  b2 := UInt8.ofNat (w.toNat / 65536)
  b3 := UInt8.ofNat (w.toNat / 16777216)

theorem toNat_toWord (q : Quad) :
    q.toWord.toNat = q.b0.toNat + 256 * (q.b1.toNat + 256 * (q.b2.toNat + 256 * q.b3.toNat)) := by
  have h0 := q.b0.toNat_lt
  have h1 := q.b1.toNat_lt
  have h2 := q.b2.toNat_lt
  have h3 := q.b3.toNat_lt
  rw [toWord, UInt32.toNat_ofNat', Nat.mod_eq_of_lt (by omega)]

theorem toWord_ofWord (w : UInt32) : (ofWord w).toWord = w := by
  apply UInt32.toNat_inj.1
  have := w.toNat_lt
  rw [toNat_toWord]
  simp only [ofWord, UInt8.toNat_ofNat']
  omega

theorem ofWord_toWord (q : Quad) : ofWord q.toWord = q := by
  have h0 := q.b0.toNat_lt
  have h1 := q.b1.toNat_lt
  have h2 := q.b2.toNat_lt
  have h3 := q.b3.toNat_lt
  obtain ⟨b0, b1, b2, b3⟩ := q
  simp only [ofWord, toNat_toWord, Quad.mk.injEq]
  refine ⟨?_, ?_, ?_, ?_⟩ <;> apply UInt8.toNat_inj.1 <;> simp only [UInt8.toNat_ofNat'] <;>
    simp only at h0 h1 h2 h3 <;> omega

end Quad

namespace ByteOrder

/-- The bytes of a word. -/
def encode (order : ByteOrder) (w : UInt32) : List UInt8 :=
  let q := Quad.ofWord w
  match order with
  | .little => [q.b0, q.b1, q.b2, q.b3]
  | .big => [q.b3, q.b2, q.b1, q.b0]

/-- The word of four bytes, in the order in which they stand. -/
def decode (order : ByteOrder) (a b c d : UInt8) : UInt32 :=
  match order with
  | .little => Quad.toWord ⟨a, b, c, d⟩
  | .big => Quad.toWord ⟨d, c, b, a⟩

theorem length_encode (order : ByteOrder) (w : UInt32) : (order.encode w).length = 4 := by
  cases order <;> rfl

/-- **Four bytes are read back as the word they were written from.** -/
theorem decode_encode (order : ByteOrder) (w : UInt32) :
    ∃ a b c d, order.encode w = [a, b, c, d] ∧ order.decode a b c d = w := by
  cases order with
  | little => exact ⟨_, _, _, _, rfl, Quad.toWord_ofWord w⟩
  | big => exact ⟨_, _, _, _, rfl, Quad.toWord_ofWord w⟩

end ByteOrder

/-- The two kinds of coverage file. -/
inductive FileKind where
  | notes
  | data
  deriving DecidableEq, Repr

namespace FileKind

/-- The four letters of a kind. -/
def letters : FileKind → List UInt8
  | .notes => [0x67, 0x63, 0x6e, 0x6f]
  | .data => [0x67, 0x63, 0x64, 0x61]

/-- The first bytes of a file of a kind. -/
def magic (kind : FileKind) : ByteOrder → List UInt8
  | .big => kind.letters
  | .little => kind.letters.reverse

end FileKind

/-- **The kind and byte order of a file,** from its first four bytes. -/
def sniff (bytes : List UInt8) : Option (FileKind × ByteOrder) :=
  let start := bytes.take 4
  if start = FileKind.notes.magic .big then some (.notes, .big)
  else if start = FileKind.notes.magic .little then some (.notes, .little)
  else if start = FileKind.data.magic .big then some (.data, .big)
  else if start = FileKind.data.magic .little then some (.data, .little)
  else none

theorem sniff_magic (kind : FileKind) (order : ByteOrder) (rest : List UInt8) :
    sniff (kind.magic order ++ rest) = some (kind, order) := by
  cases kind <;> cases order <;> simp [sniff, FileKind.magic, FileKind.letters]

/-- Whether a file starts as a data file does. -/
def hasDataMagic (bytes : List UInt8) : Bool :=
  match sniff bytes with
  | some (.data, _) => true
  | _ => false

end ArcCoverage
