/-
# SHA-256

The hash that shortens the names of report files. A message is padded to whole blocks of 64 bytes: a one
bit, zeros, and its length in bits. Each block of sixteen words is spread to sixty-four, and mixed into a
state of eight words in as many rounds.
-/
import ArcCoverage.Text.Layout

namespace ArcCoverage.Sha256

/-- The working state. -/
structure State where
  a : UInt32
  b : UInt32
  c : UInt32
  d : UInt32
  e : UInt32
  f : UInt32
  g : UInt32
  h : UInt32
  deriving DecidableEq, Repr

/-- The state before the first block: square roots of the first primes, their first 32 bits behind
the point. -/
def initial : State :=
  ⟨0x6a09e667, 0xbb67ae85, 0x3c6ef372, 0xa54ff53a, 0x510e527f, 0x9b05688c, 0x1f83d9ab, 0x5be0cd19⟩

/-- The constants of the rounds: cube roots of the first primes, their first 32 bits behind the
point. -/
def roundConstants : List UInt32 := [
  0x428a2f98, 0x71374491, 0xb5c0fbcf, 0xe9b5dba5, 0x3956c25b, 0x59f111f1, 0x923f82a4, 0xab1c5ed5,
  0xd807aa98, 0x12835b01, 0x243185be, 0x550c7dc3, 0x72be5d74, 0x80deb1fe, 0x9bdc06a7, 0xc19bf174,
  0xe49b69c1, 0xefbe4786, 0x0fc19dc6, 0x240ca1cc, 0x2de92c6f, 0x4a7484aa, 0x5cb0a9dc, 0x76f988da,
  0x983e5152, 0xa831c66d, 0xb00327c8, 0xbf597fc7, 0xc6e00bf3, 0xd5a79147, 0x06ca6351, 0x14292967,
  0x27b70a85, 0x2e1b2138, 0x4d2c6dfc, 0x53380d13, 0x650a7354, 0x766a0abb, 0x81c2c92e, 0x92722c85,
  0xa2bfe8a1, 0xa81a664b, 0xc24b8b70, 0xc76c51a3, 0xd192e819, 0xd6990624, 0xf40e3585, 0x106aa070,
  0x19a4c116, 0x1e376c08, 0x2748774c, 0x34b0bcb5, 0x391c0cb3, 0x4ed8aa4a, 0x5b9cca4f, 0x682e6ff3,
  0x748f82ee, 0x78a5636f, 0x84c87814, 0x8cc70208, 0x90befffa, 0xa4506ceb, 0xbef9a3f7, 0xc67178f2]

/-- A word rotated to the right. -/
def rotate (w : UInt32) (n : UInt32) : UInt32 := (w >>> n) ||| (w <<< (32 - n))

/-- The bytes of a number, the highest first. -/
def bigEndian : Nat → Nat → List UInt8
  | 0, _ => []
  | width + 1, n => bigEndian width (n / 256) ++ [UInt8.ofNat n]

/-- **A message padded to whole blocks.** -/
def pad (message : List UInt8) : List UInt8 :=
  message ++ 0x80 :: List.replicate ((119 - message.length % 64) % 64) 0 ++
    bigEndian 8 (message.length * 8)

/-- The words that bytes spell, the highest byte of each first. -/
def words : List UInt8 → List UInt32
  | a :: b :: c :: d :: rest =>
    UInt32.ofNat (((a.toNat * 256 + b.toNat) * 256 + c.toNat) * 256 + d.toNat) :: words rest
  | _ => []

/-- The next word of a schedule, from the sixteen before it. -/
def nextWord (window : List UInt32) : UInt32 :=
  let entry (i : Nat) := window.getD i 0
  let low := entry 1
  let high := entry 14
  (rotate high 17 ^^^ rotate high 19 ^^^ (high >>> 10)) + entry 9 +
    (rotate low 7 ^^^ rotate low 18 ^^^ (low >>> 3)) + entry 0

/-- The first words of a schedule, from a window of sixteen. -/
def schedule : Nat → List UInt32 → List UInt32
  | 0, _ => []
  | n + 1, window => window.getD 0 0 :: schedule n (window.drop 1 ++ [nextWord window])

/-- One round, with its constant and its word of the schedule. -/
def round (s : State) (constant word : UInt32) : State :=
  let s1 := rotate s.e 6 ^^^ rotate s.e 11 ^^^ rotate s.e 25
  let choice := (s.e &&& s.f) ^^^ (~~~s.e &&& s.g)
  let t1 := s.h + s1 + choice + constant + word
  let s0 := rotate s.a 2 ^^^ rotate s.a 13 ^^^ rotate s.a 22
  let majority := (s.a &&& s.b) ^^^ (s.a &&& s.c) ^^^ (s.b &&& s.c)
  ⟨t1 + s0 + majority, s.a, s.b, s.c, s.d + t1, s.e, s.f, s.g⟩

/-- Two states added word by word. -/
def State.plus (s t : State) : State :=
  ⟨s.a + t.a, s.b + t.b, s.c + t.c, s.d + t.d, s.e + t.e, s.f + t.f, s.g + t.g, s.h + t.h⟩

/-- **One block mixed into a state.** -/
def compress (s : State) (block : List UInt8) : State :=
  let rounds := roundConstants.zip (schedule 64 (words block))
  s.plus (rounds.foldl (fun t (constant, word) => round t constant word) s)

/-- All blocks mixed into a state. -/
def compressAll : Nat → State → List UInt8 → State
  | 0, s, _ => s
  | n + 1, s, bytes => compressAll n (compress s (bytes.take 64)) (bytes.drop 64)

/-- **The hash of a message.** -/
def hash (message : List UInt8) : State :=
  let padded := pad message
  compressAll (padded.length / 64) initial padded

/-- A state in hexadecimal. -/
def State.text (s : State) : String :=
  String.ofList ([s.a, s.b, s.c, s.d, s.e, s.f, s.g, s.h].flatMap fun w => Text.hexDigits 8 w.toNat)

end ArcCoverage.Sha256
