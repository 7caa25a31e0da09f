/-
# Tokens of Itanium symbols

The pieces that hold no others:

| spelled | token |
| --- | --- |
| `12`, `n12` | numbers, with `n` for the minus |
| `3foo` | a name behind its length |
| `B5cxx11` | a tag of a name |
| `S_`, `S0_`, `St` | a part that was there before, or a well-known name |
| `T_`, `T0_` | a template parameter |
| `fp_`, `fL0p1_`, `fpT` | a parameter of a function, or its object |
| `_3`, `__12_` | a number that tells names of one scope apart, which is not shown |
| `h4_`, `v4_n8_` | the offsets of a thunk |

No number begins with a zero, but for zero itself, and each is less than 2⁶³. A token is nested as
deep as the pieces it is in; `room` says how many levels are left.
-/
import ArcCoverage.Symbol.Digit
import ArcCoverage.Symbol.Encoding.Scan

namespace ArcCoverage.Symbol.Encoding.Scan

/-- The digits of a number: no zero in front of others. -/
def digits (isDigit : Char → Bool) : Scan (List Char) := do
  let cs ← span isDigit
  if cs.isEmpty || (cs.head? = some '0' && cs.length ≠ 1) then mismatch
  return cs

/-- A number that is not too great. -/
def bounded (n : Nat) : Scan Nat := if n < 0x8000000000000000 then return n else mismatch

/-- A number without a sign. -/
def natural : Scan Nat := do bounded (decimalValue (← digits isDigit))

/-- A number with a sign. -/
def signed : Scan Int := do
  let isNegative ← eat "n"
  let n : Int ← natural
  return if isNegative then -n else n

/-- A number with a sign, as a piece of its own. -/
def integer (room : Nat) : Scan Int := enter room fun _ => signed

/-- A number of base 36. -/
def sequence (room : Nat) : Scan Nat := enter room fun _ => do
  let cs ← digits fun c => (digit36? c).isSome
  bounded (cs.foldl (fun n c => n * 36 + (digit36? c).getD 0) 0)

/-- The number of something that is counted behind one without a number. -/
def counted (number : Scan Nat) : Scan Nat := do
  return ((← attempt number).map (· + 1)).getD 0

/-- A name of given characters. -/
def identifier (room : Nat) (cs : List Char) : Scan String := enter room fun _ =>
  if !cs.isEmpty && cs.all isNameChar then return String.ofList cs else mismatch

/-- A name behind its length. -/
def sourceName (room : Nat) : Scan String := enter room fun room => do
  let length ← natural
  let cs := (← get).rest.take length
  if length = 0 || cs.length < length then mismatch
  let name ← identifier room cs
  skip length
  return name

/-- The tags of a name. -/
def tags (room : Nat) : Scan (List String) := enter room fun room =>
  many (enter room fun room => do
    expect "B"
    sourceName room)

/-- A well-known name. -/
def wellKnown (room : Nat) : Scan Part := enter room fun _ => do
  match WellKnown.all.lookup (← ahead 2) with
  | some name =>
    skip 2
    return .wellKnown name
  | none => mismatch

/-- A part that was there before, or a well-known name. -/
def substitution (room : Nat) : Scan Part := enter room fun room =>
  firstOf [
    wellKnown room,
    do
      expect "S"
      let n ← counted (sequence room)
      match (← get).parts[n]? with
      | some part =>
        expect "_"
        return part
      | none => mismatch]

/-- The number of a template parameter. -/
def templateParameter (room : Nat) : Scan Nat := enter room fun _ => do
  expect "T"
  let n ← counted natural
  expect "_"
  return n

/-- The qualifiers of a type or a member function; there may be none. -/
def qualifiers (room : Nat) : Scan Qualifiers := enter room fun _ => do
  let isRestrict ← eat "r"
  let isVolatile ← eat "V"
  let isConst ← eat "K"
  return { isRestrict, isVolatile, isConst }

/-- The kind of object that a member function is for. -/
def objectKind (room : Nat) : Scan ObjectKind := enter room fun _ => do
  if ← eat "R" then return .lvalue
  expect "O"
  return .rvalue

/-- A parameter of a function by its number, or its object. -/
def functionParameter (room : Nat) : Scan (Option Nat) := enter room fun room => do
  expect "f"
  if ← eat "L" then
    let _ ← natural
  expect "p"
  let _ ← qualifiers room
  let number ← if ← eat "T" then pure none else do pure (some (← counted natural))
  expect "_"
  return number

/-- A number that tells names of one scope apart. -/
def discriminator (room : Nat) : Scan Unit := enter room fun _ => do
  expect "_"
  if ← eat "_" then
    if (← natural) < 10 then mismatch
    expect "_"
  else if (← peek).any isDigit then skip 1
  else mismatch

/-- A number that tells names of one scope apart, where it may be missing. -/
def optDiscriminator (room : Nat) : Scan Unit := do
  let _ ← attempt (discriminator room)

/-- The offsets of a thunk. -/
def callOffset (room : Nat) : Scan CallOffset := enter room fun room => do
  if ← eat "h" then
    let n ← enter room integer
    expect "_"
    return .fixed n
  expect "v"
  let (n, entry) ← enter room fun room => do
    let n ← integer room
    expect "_"
    return (n, ← integer room)
  expect "_"
  return .virtual n entry

/-- The name of an operator that is a sign or a word. -/
def operator (room : Nat) : Scan Operator := enter room fun _ => do
  let letters ← ahead 2
  match Operator.all.find? (·.letters == letters) with
  | some operator =>
    skip 2
    return operator
  | none => mismatch

/-- A basic type. -/
def basicType (room : Nat) : Scan BasicType := enter room fun _ => do
  let one ← ahead 1
  let two ← ahead 2
  match BasicType.all.find? fun b => b.letters == one || b.letters == two with
  | some type =>
    skip type.letters.length
    return type
  | none => mismatch

/-- A copy that a compiler made of a function. -/
def copy (room : Nat) : Scan Copy := enter room fun room => do
  expect "."
  let label ← enter room fun _ => span isWordChar
  if label.isEmpty then mismatch
  let numbers ← many do
    expect "."
    natural
  return ⟨String.ofList label, numbers⟩

/-- The name of a resource, in which `$S` is a slash and `$_` a dot. -/
def resource (room : Nat) : Scan String := enter room fun _ => do
  let cs ← span (· != '$')
  if cs.isEmpty then mismatch
  let text := String.ofList cs
  match ← ahead 2 with
  | "$S" =>
    skip 2
    return text ++ "/"
  | "$_" =>
    skip 2
    return text ++ "."
  | "$$" =>
    skip 2
    return text ++ "$"
  | mark => if mark.isEmpty then return text else mismatch

end ArcCoverage.Symbol.Encoding.Scan
