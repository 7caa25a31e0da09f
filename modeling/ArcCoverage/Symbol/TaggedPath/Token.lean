/-
# Tokens of tagged paths

What the nodes of a tagged path are made of, read from an offset in the symbol:

| token | spelled | stands for |
| --- | --- | --- |
| number | digits of base 62, `_` | `_` is 0, `0_` is 1, … |
| optional number | a letter and a number | 0 without the letter, else one more |
| namespace | a letter | a capital letter is shown |
| identifier | `u`, length, `_`, characters | `u` if it is punycode; `_` if it is needed |
| constant | hexadecimal digits, `_` | a number or the bytes of a text |

Numbers have 64 bits; a greater one is no token.
-/
import ArcCoverage.Symbol.Digit
import ArcCoverage.Symbol.Punycode

namespace ArcCoverage.Symbol.TaggedPath

/-- Why a symbol cannot be read on. -/
inductive Fault where
  | invalid
  | tooDeep
  deriving DecidableEq, Repr

/-- What is shown in the place of a node that cannot be read. -/
def Fault.message : Fault → String
  | invalid => "\x7binvalid syntax\x7d"
  | tooDeep => "\x7brecursion limit reached\x7d"

/-- Reads from the characters of a symbol at an offset. -/
abbrev Token := ReaderT (Array Char) (StateT Nat (Except Fault))

namespace Token

/-- The next character, which stays. -/
def peek : Token (Option Char) := do return (← read)[← get]?

/-- The next character. -/
def next : Token Char := do
  match ← peek with
  | some c =>
    modify (· + 1)
    return c
  | none => throw .invalid

/-- Whether the next character is a given one, which is then passed. -/
def eat (c : Char) : Token Bool := do
  if (← peek) = some c then
    modify (· + 1)
    return true
  return false

/-- The characters up to the first that fails a test; at most `fuel` of them. -/
def takeWhile (test : Char → Bool) : Nat → Token (List Char)
  | 0 => return []
  | fuel + 1 => do
    match ← peek with
    | some c =>
      if test c then
        modify (· + 1)
        return c :: (← takeWhile test fuel)
      return []
    | none => return []

/-- The characters up to the first that fails a test. -/
def span (test : Char → Bool) : Token (List Char) := do takeWhile test (← read).size

/-- A number, if it has 64 bits. -/
def word (n : Nat) : Token Nat := if n < UInt64.size then return n else throw .invalid

/-- The number that digits of base 62 spell. -/
def value62? (digits : List Char) : Option Nat :=
  digits.foldlM (fun n c => (digit62? c).map (n * 62 + ·)) 0

/-- A number of base 62 up to its `_`. -/
def number : Token Nat := do
  let digits ← span (· != '_')
  if (← next) ≠ '_' then throw .invalid
  if digits.isEmpty then return 0
  match value62? digits with
  | some n => word (n + 1)
  | none => throw .invalid

/-- A number of base 62 behind a letter; zero without it. -/
def optNumber (tag : Char) : Token Nat := do
  if ← eat tag then word ((← number) + 1) else return 0

/-- The number that tells siblings of one name apart. -/
def disambiguator : Token Nat := optNumber 's'

/-- The letter of a namespace that is shown; none for one that is not. -/
def namespace? : Token (Option Char) := do
  let c ← next
  if isCapital c then return some c
  else if isSmall c then return none
  else throw .invalid

/-- The offset that a reference behind its letter goes to, which must be before that letter. -/
def referenceTarget : Token Nat := do
  let start := (← get) - 1
  let target ← number
  if target < start then return target else throw .invalid

/-- The hexadecimal digits up to a `_`. -/
def hexDigits : Token (List Char) := do
  let digits ← span isSmallHexDigit
  if (← next) = '_' then return digits else throw .invalid

end Token

/-- A name, with the characters that punycode puts into it. -/
structure Identifier where
  ascii : List Char
  insertions : List Char := []
  deriving DecidableEq, Repr

namespace Identifier

/-- Whether a name is empty. -/
def isEmpty (name : Identifier) : Bool := name.ascii.isEmpty && name.insertions.isEmpty

/-- **A name as it is shown,** in the pieces that are written. -/
def pieces (name : Identifier) : List String :=
  match Punycode.decode name.ascii name.insertions with
  | some text => text.map fun c => String.ofList [c]
  | none =>
    if name.insertions.isEmpty then [String.ofList name.ascii]
    else
      let ascii := if name.ascii.isEmpty then [] else [String.ofList name.ascii, "-"]
      ["punycode\x7b"] ++ ascii ++ [String.ofList name.insertions, "\x7d"]

/-- A name in punycode, in two parts at its last `_`. -/
def ofPunycode (cs : List Char) : Identifier :=
  let insertions := (cs.reverse.takeWhile (· != '_')).reverse
  ⟨cs.take (cs.length - insertions.length - 1), insertions⟩

end Identifier

/-- The decimal number in front of a name. A zero stands alone. -/
def Token.length : Token Nat := do
  match digit? (← next) with
  | none => throw .invalid
  | some 0 => return 0
  | some d => return (← span isDigit).foldl (fun n c => n * 10 + (digit? c).getD 0) d

/-- **A name behind its length.** -/
def Token.identifier : Token Identifier := do
  let encoded ← eat 'u'
  let length ← Token.length
  let _ ← eat '_'
  let start ← get
  let symbol ← read
  if symbol.size < start + length then throw .invalid
  set (start + length)
  let cs := (symbol.extract start (start + length)).toList
  if !encoded then return { ascii := cs }
  let name := Identifier.ofPunycode cs
  if name.insertions.isEmpty then throw .invalid
  return name

end ArcCoverage.Symbol.TaggedPath
