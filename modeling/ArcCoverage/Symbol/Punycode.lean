/-
# Punycode

Names outside ASCII are spelled as their ASCII characters and a list of insertions: each says, in a
number of base 36 with moving thresholds, how many code points and places to step on before the next
character goes in. Texts of more than 128 characters are not decoded.
-/

namespace ArcCoverage.Symbol.Punycode

/-- The value of a digit of base 36. -/
def digit? (c : Char) : Option Nat :=
  if 'a' ≤ c && c ≤ 'z' then some (c.toNat - 'a'.toNat)
  else if '0' ≤ c && c ≤ '9' then some (c.toNat - '0'.toNat + 26)
  else none

/-- The threshold of a digit. -/
def threshold (k bias : Nat) : Nat := min (max (k - bias) 1) 26

/-- The next number, and the digits behind it. -/
def number (bias : Nat) : Nat → Nat → Nat → List Char → Option (Nat × List Char)
  | _, _, _, [] => none
  | k, weight, sum, c :: cs => do
    let d ← digit? c
    let sum := sum + d * weight
    let t := threshold k bias
    if d < t then return (sum, cs)
    number bias (k + 36) (weight * (36 - t)) sum cs

/-- A step scaled down, and how often that was done. -/
def scaled : Nat → Nat → Nat × Nat
  | 0, delta => (0, delta)
  | fuel + 1, delta =>
    if delta ≤ 455 then (0, delta)
    else
      let (k, delta) := scaled fuel (delta / 35)
      (k + 36, delta)

/-- The bias after a step, for a text of a length. -/
def adapt (delta length : Nat) (first : Bool) : Nat :=
  let delta := if first then delta / 700 else delta / 2
  let (k, delta) := scaled 64 (delta + delta / length)
  k + 36 * delta / (delta + 38)

/-- Insertions made one after the other. -/
def insertAll : Nat → List Char → Nat → Nat → Nat → Bool → List Char → Option (List Char)
  | _, text, _, _, _, _, [] => some text
  | 0, _, _, _, _, _, _ => none
  | fuel + 1, text, point, place, bias, first, digits => do
    let (delta, digits) ← number bias 36 1 0 digits
    let length := text.length + 1
    let place := place + delta
    let point := point + place / length
    let place := place % length
    if !point.isValidChar then none
    let text := text.take place ++ Char.ofNat point :: text.drop place
    insertAll fuel text point (place + 1) (adapt delta length first) false digits

/-- The length of the longest text that is decoded. -/
def longest : Nat := 128

/-- **The text of ASCII characters and insertions,** of which there must be some. -/
def decode (ascii insertions : List Char) : Option (List Char) :=
  if insertions.isEmpty then none
  else
    (insertAll insertions.length ascii 0x80 0 72 true insertions).filter fun text =>
      text.length ≤ longest

end ArcCoverage.Symbol.Punycode
