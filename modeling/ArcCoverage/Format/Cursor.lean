/-
# A cursor over the words of a file

A cursor knows the byte order, its offset in the file, and the bytes from there to its own end. A
read moves it forward; a record taken from it is a cursor of its own that ends where the record does.

| read | bytes | value |
| --- | --- | --- |
| `word` | 4 | a 32-bit word |
| `counter` | 8 | a 64-bit number, its low word first |
| `string` | 4 + 4·n | a word n, then n words of UTF-8 text cut at the first zero byte |
| `record w` | 4·w | a cursor over these bytes |

A read that wants more bytes than there are fails with the offset at which it wanted them, and
leaves the cursor where that attempt began.
-/
import ArcCoverage.Format.ByteOrder
import ArcCoverage.Text.Utf8

namespace ArcCoverage

/-- A place in a file, and the bytes from there to the end of what may be read. -/
structure Cursor where
  order : ByteOrder
  position : Nat
  rest : List UInt8
  deriving DecidableEq, Repr

/-- Fewer bytes are left than a read wants. -/
structure Shortage where
  position : Nat
  wanted : Nat
  deriving DecidableEq, Repr

/-- A read moves the cursor, also when it fails. -/
abbrev Read := EStateM Shortage Cursor

namespace Cursor

/-- Whether no byte is left. -/
def atEnd (c : Cursor) : Bool := c.rest.isEmpty

/-- The offset at which the cursor ends. -/
def limit (c : Cursor) : Nat := c.position + c.rest.length

/-- The cursor behind its next `n` bytes. -/
def advance (c : Cursor) (n : Nat) : Cursor :=
  { c with position := c.position + n, rest := c.rest.drop n }

end Cursor

namespace Read

/-- **The next `n` bytes.** -/
def bytes (n : Nat) : Read (List UInt8) := fun c =>
  if n ≤ c.rest.length then .ok (c.rest.take n) (c.advance n)
  else .error ⟨c.position, n⟩ c

/-- The word that the first four of some bytes spell. -/
def wordOf (order : ByteOrder) : List UInt8 → UInt32
  | a :: b :: c :: d :: _ => order.decode a b c d
  | _ => 0

/-- **The next word.** -/
def word : Read UInt32 := fun c =>
  match bytes 4 c with
  | .ok quad c' => .ok (wordOf c.order quad) c'
  | .error e c' => .error e c'

/-- A 64-bit number from its two words. -/
def combine (low high : UInt32) : UInt64 := UInt64.ofNat (low.toNat + UInt32.size * high.toNat)

/-- **The next 64-bit number.** -/
def counter : Read UInt64 := do
  let low ← word
  let high ← word
  return combine low high

/-- **The next text.** -/
def string : Read String := do
  let words ← word
  let padded ← bytes (words.toNat * 4)
  return Utf8.decode (padded.takeWhile (· != 0))

/-- **The next record's payload.** -/
def record (words : UInt32) : Read Cursor := fun c =>
  match bytes (words.toNat * 4) c with
  | .ok payload c' => .ok { c with rest := payload } c'
  | .error e c' => .error e c'

/-- A read repeated. -/
def replicate {α : Type} (read : Read α) : Nat → Read (List α)
  | 0 => return []
  | n + 1 => do
    let a ← read
    let as ← replicate read n
    return a :: as

end Read

end ArcCoverage
