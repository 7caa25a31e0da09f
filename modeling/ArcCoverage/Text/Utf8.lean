/-
# UTF-8, read leniently

`Utf8.decode` turns any byte string into text. Well-formed sequences are decoded as the Unicode
standard says (its table of well-formed byte sequences); every maximal piece that cannot be continued
to a well-formed sequence becomes one U+FFFD.

| lead byte | more bytes | bounds of the next byte |
| --- | ---: | --- |
| `00`–`7f` | 0 | |
| `c2`–`df` | 1 | `80`–`bf` |
| `e0` | 2 | `a0`–`bf` |
| `e1`–`ec`, `ee`, `ef` | 2 | `80`–`bf` |
| `ed` | 2 | `80`–`9f` |
| `f0` | 3 | `90`–`bf` |
| `f1`–`f3` | 3 | `80`–`bf` |
| `f4` | 3 | `80`–`8f` |

The narrowed bounds keep out overlong forms, surrogates and code points past U+10FFFF.
-/

namespace ArcCoverage.Utf8

/-- What stands for a piece that is not UTF-8. -/
def replacement : Char := '\ufffd'

/-- A sequence that has begun: the bits collected, the bytes that are missing, and the bounds of the
next one. -/
structure Pending where
  value : Nat
  missing : Nat
  low : UInt8
  high : UInt8
  deriving DecidableEq, Repr

/-- What a byte at the start of a sequence means. -/
inductive Lead where
  | single (c : Char)
  | opens (pending : Pending)
  | invalid
  deriving DecidableEq, Repr

/-- The row of the table that a lead byte belongs to. -/
def lead (b : UInt8) : Lead :=
  if b < 0x80 then .single (Char.ofNat b.toNat)
  else if b < 0xc2 then .invalid
  else if b < 0xe0 then .opens ⟨b.toNat - 0xc0, 1, 0x80, 0xbf⟩
  else if b = 0xe0 then .opens ⟨0, 2, 0xa0, 0xbf⟩
  else if b = 0xed then .opens ⟨0xd, 2, 0x80, 0x9f⟩
  else if b < 0xf0 then .opens ⟨b.toNat - 0xe0, 2, 0x80, 0xbf⟩
  else if b = 0xf0 then .opens ⟨0, 3, 0x90, 0xbf⟩
  else if b < 0xf4 then .opens ⟨b.toNat - 0xf0, 3, 0x80, 0xbf⟩
  else if b = 0xf4 then .opens ⟨4, 3, 0x80, 0x8f⟩
  else .invalid

/-- Whether a byte continues a sequence. -/
def Pending.accepts (p : Pending) (b : UInt8) : Bool := p.low ≤ b && b ≤ p.high

/-- The bits collected once a continuation byte is taken in. -/
def Pending.extended (p : Pending) (b : UInt8) : Nat := p.value * 64 + (b.toNat - 0x80)

/-- What a byte at the start of a sequence gives: the characters that are certain, and the sequence
that is open then. -/
def start (b : UInt8) : List Char × Option Pending :=
  match lead b with
  | .single c => ([c], none)
  | .opens p => ([], some p)
  | .invalid => ([replacement], none)

/-- **What the next byte gives.** A byte that does not continue the open sequence ends it and starts
another. -/
def step (open? : Option Pending) (b : UInt8) : List Char × Option Pending :=
  match open? with
  | none => start b
  | some p =>
    if p.accepts b then
      if p.missing ≤ 1 then ([Char.ofNat (p.extended b)], none)
      else ([], some ⟨p.extended b, p.missing - 1, 0x80, 0xbf⟩)
    else (replacement :: (start b).1, (start b).2)

/-- **The lenient decoder,** with the sequence that is open, if any. -/
def decodeFrom : Option Pending → List UInt8 → List Char
  | none, [] => []
  | some _, [] => [replacement]
  | open?, b :: bytes => (step open? b).1 ++ decodeFrom (step open? b).2 bytes

/-- The text of a byte string. -/
def decode (bytes : List UInt8) : String := String.ofList (decodeFrom none bytes)

/-- The bytes of a text. -/
def encode (text : String) : List UInt8 := text.toList.flatMap String.utf8EncodeChar

/-- Whether a byte string is the encoding of a text. -/
def isValid (bytes : List UInt8) : Bool := encode (decode bytes) = bytes

end ArcCoverage.Utf8
