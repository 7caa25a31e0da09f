/-
# Nodes of tagged paths

Every node begins with a letter.

| path | shown as |
| --- | --- |
| `C` name | a library |
| `N` namespace, path, name | `path::name`, or `path::{closure#n}` |
| `M` `X` `Y` | `<type>` or `<type as trait>` |
| `I` path, arguments, `E` | `path::<arguments>` |

| type | shown as |
| --- | --- |
| one small letter | a basic type |
| `R` `Q` `P` `O` | `&t`, `&mut t`, `*const t`, `*mut t` |
| `A` `S` `T` | `[t; n]`, `[t]`, `(t, …)` |
| `F` `D` `W` | a function, traits, a type with a pattern |
| any other | a path |

| constant | shown as |
| --- | --- |
| the letter of a number, digits | the number |
| `b` `c` `e` `Re` | a truth value, a character, texts |
| `R` `Q` `A` `T` `V` | a reference, an array, a tuple, a value of a named type |

Each of them may also be `B` and the offset of a node of its kind. Where a constant stands between
type arguments, all but the plain ones are shown in braces.
-/
import ArcCoverage.Symbol.TaggedPath.Page
import ArcCoverage.Text.Quoted
import ArcCoverage.Text.Utf8

namespace ArcCoverage.Symbol.TaggedPath

/-- What a reference stands for. -/
inductive Target where
  | path (inValue : Bool)
  | type
  | constant (inValue : Bool)
  /-- The path of a trait, whose angle brackets stay open for what else belongs there. -/
  | openPath
  deriving DecidableEq, Repr

/-- The nodes that nest. A path within a value has colons in front of its arguments; a constant within
another has no braces of its own. -/
inductive Node where
  | path (inValue : Bool)
  | type
  | constant (inValue : Bool)
  | reference (target : Target)
  deriving DecidableEq, Repr

/-- The types that are one letter. -/
def basicType? : Char → Option String
  | 'b' => some "bool"
  | 'c' => some "char"
  | 'e' => some "str"
  | 'u' => some "()"
  | 'a' => some "i8"
  | 's' => some "i16"
  | 'l' => some "i32"
  | 'x' => some "i64"
  | 'n' => some "i128"
  | 'i' => some "isize"
  | 'h' => some "u8"
  | 't' => some "u16"
  | 'm' => some "u32"
  | 'y' => some "u64"
  | 'o' => some "u128"
  | 'j' => some "usize"
  | 'f' => some "f32"
  | 'd' => some "f64"
  | 'z' => some "!"
  | 'p' => some "_"
  | 'v' => some "..."
  | _ => none

/-- Whether a letter stands for an integer type without a sign. -/
def isUnsigned (c : Char) : Bool := ['h', 't', 'm', 'y', 'o', 'j'].contains c

/-- Whether a letter stands for an integer type with a sign. -/
def isSigned (c : Char) : Bool := ['a', 's', 'l', 'x', 'n', 'i'].contains c

/-- The number that hexadecimal digits spell, if 64 bits hold it. -/
def word? (digits : List Char) : Option Nat :=
  if (digits.dropWhile (· = '0')).length ≤ 16 then some (hexValue digits) else none

/-- The bytes that hexadecimal digits spell in pairs. -/
def bytes? : List Char → Option (List UInt8)
  | [] => some []
  | [_] => none
  | a :: b :: rest => (bytes? rest).map (UInt8.ofNat (hexValue [a, b]) :: ·)

/-- The text that hexadecimal digits spell. -/
def text? (digits : List Char) : Option String :=
  (bytes? digits).bind fun bytes =>
    if Utf8.isValid bytes then some (Utf8.decode bytes) else none

namespace Scan

/-- How nodes are written one level down. -/
abbrev Below := Node → Scan Unit

/-- The way one level down, which ends where the nesting is too deep. -/
def enter (below : Option Below) : Scan Below := do
  if ← isStuck then
    put "?"
    throw .node
  match below with
  | some below => return below
  | none => fail .tooDeep

/-- A character or a text between quotes. -/
def quoted (quote : Char) (cs : List Char) : Scan Unit := do
  putChars [quote]
  cs.forM fun c => putChars (Text.quotedChar quote c)
  putChars [quote]

/-- A number. One of more than 64 bits is shown by its digits. -/
def unsigned : Scan Unit := closed do
  let digits ← token Token.hexDigits
  match word? digits with
  | some n => put (toString n)
  | none =>
    put "0x"
    put (String.ofList digits)

/-- A text. -/
def text : Scan Unit := closed do
  match text? (← token Token.hexDigits) with
  | some text => quoted '"' text.toList
  | none => fail .invalid

/-- A truth value. -/
def truth : Scan Unit := do
  match word? (← token Token.hexDigits) with
  | some 0 => put "false"
  | some 1 => put "true"
  | _ => fail .invalid

/-- A character. -/
def character : Scan Unit := do
  match word? (← token Token.hexDigits) with
  | some n => if n.isValidChar then quoted '\'' [Char.ofNat n] else fail .invalid
  | none => fail .invalid

/-- An argument of a path: a lifetime, a constant or a type. -/
def argument (below : Below) : Scan Unit := closed do
  if ← eat 'L' then lifetime (← token Token.number)
  else if ← eat 'K' then below (.constant false)
  else below .type

/-- The path of a trait, whose angle brackets stay open if there are any. -/
def openPath (below : Below) : Scan Unit := do
  if ← eat 'B' then below (.reference .openPath)
  else if ← eat 'I' then
    below (.path false)
    put "<"
    let _ ← list (argument below)
    modify fun page => { page with isOpen := true }
  else
    below (.path false)
    modify fun page => { page with isOpen := false }

/-- Bindings of associated types or constants, at most `fuel` of them. -/
def bindings (below : Below) : Nat → Scan Unit
  | 0 => return ()
  | fuel + 1 => do
    if ← eat 'p' then
      put (if (← get).isOpen then ", " else "<")
      putName (← token Token.identifier)
      put " = "
      if ← eat 'K' then below (.constant false) else below .type
      modify fun page => { page with isOpen := true }
      bindings below fuel

/-- A trait with its arguments and bindings. -/
def trait (below : Below) : Scan Unit := closed do
  modify fun page => { page with isOpen := false }
  openPath below
  bindings below (← read).symbol.size
  if (← get).isOpen then put ">"

/-- The calling convention of a function type, which has `-` where the symbol has `_`. -/
def convention : Scan (Option String) := do
  if !(← eat 'K') then return none
  if ← eat 'C' then return some "C"
  let name ← token Token.identifier
  if name.ascii.isEmpty || !name.insertions.isEmpty then fail .invalid
  return some (String.ofList (name.ascii.map fun c => if c = '_' then '-' else c))

/-- A function type behind its letter and the lifetimes it binds. -/
def function (below : Below) : Scan Unit := do
  let isUnsafe ← eat 'U'
  let abi ← convention
  if isUnsafe then put "unsafe "
  if let some abi := abi then put ("extern \"" ++ abi ++ "\" ")
  put "fn("
  let _ ← list do
    if ← eat 'w' then put "#[splat] "
    below .type
  put ")"
  if !(← eat 'u') then
    put " -> "
    below .type

/-- The traits of a trait object and its lifetime. -/
def traits (below : Below) : Scan Unit := do
  put "dyn "
  binder do
    let _ ← list (trait below) " + "
  if !(← eat 'L') then fail .invalid
  let index ← token Token.number
  if index ≠ 0 then
    put " + "
    lifetime index

/-- A reference behind its letter. -/
def borrow (below : Below) (isMutable : Bool) : Scan Unit := do
  put "&"
  if ← eat 'L' then
    let index ← token Token.number
    if index ≠ 0 then
      lifetime index
      put " "
  if isMutable then put "mut "
  below .type

/-- A pattern that narrows a type; alternatives nest at most `fuel` deep. -/
def pattern (below : Below) : Nat → Scan Unit
  | 0 => fail .tooDeep
  | fuel + 1 => closed do
    match ← token Token.next with
    | 'R' =>
      below (.constant false)
      put "..="
      below (.constant false)
    | 'O' =>
      let _ ← list (pattern below fuel) " | "
    | 'N' => put "!null"
    | _ => fail .invalid

/-- A path. -/
def path (below : Option Below) (inValue : Bool) : Scan Unit := do
  let below ← enter below
  match ← token Token.next with
  | 'C' =>
    let _ ← token Token.disambiguator
    putName (← token Token.identifier)
  | 'N' =>
    let shownSpace ← token Token.namespace?
    below (.path inValue)
    if ← isStuck then put "::"
    let number ← token Token.disambiguator
    let name ← token Token.identifier
    match shownSpace with
    | some space =>
      put "::\x7b"
      put (if space = 'C' then "closure" else if space = 'S' then "shim" else String.ofList [space])
      if !name.isEmpty then
        put ":"
        putName name
      put "#"
      put (toString number)
      put "\x7d"
    | none =>
      if !name.isEmpty then
        put "::"
        putName name
  | 'I' =>
    below (.path inValue)
    if inValue then put "::"
    put "<"
    let _ ← list (argument below)
    put ">"
  | 'B' => below (.reference (.path inValue))
  | 'M' =>
    implPlace below
    put "<"
    below .type
    put ">"
  | 'X' =>
    implPlace below
    asTrait below
  | 'Y' => asTrait below
  | _ => fail .invalid
where
  /-- Where an implementation stands, which is not shown. -/
  implPlace (below : Below) : Scan Unit := do
    let _ ← token Token.disambiguator
    silently (below (.path false))
  /-- A type as one of a trait. -/
  asTrait (below : Below) : Scan Unit := do
    put "<"
    below .type
    put " as "
    below (.path false)
    put ">"

/-- A type. -/
def type (below : Option Below) : Scan Unit := do
  let tag ← token Token.next
  match basicType? tag with
  | some word => put word
  | none =>
    let below ← enter below
    match tag with
    | 'R' => borrow below false
    | 'Q' => borrow below true
    | 'P' =>
      put "*const "
      below .type
    | 'O' =>
      put "*mut "
      below .type
    | 'A' =>
      put "["
      below .type
      put "; "
      below (.constant true)
      put "]"
    | 'S' =>
      put "["
      below .type
      put "]"
    | 'T' =>
      put "("
      let count ← list (below .type)
      put (if count = 1 then ",)" else ")")
    | 'F' => binder (function below)
    | 'D' => traits below
    | 'B' => below (.reference .type)
    | 'W' =>
      below .type
      put " is "
      pattern below (← read).symbol.size
    | _ =>
      modify fun page => { page with place := page.place.map (· - 1) }
      below (.path false)

/-- A value of a named type, behind its letter. -/
def namedValue (below : Below) : Scan Unit := do
  below (.path true)
  match ← token Token.next with
  | 'U' => return ()
  | 'T' =>
    put "("
    let _ ← list (below (.constant true))
    put ")"
  | 'S' =>
    put " \x7b "
    let _ ← list do
      let _ ← token Token.disambiguator
      putName (← token Token.identifier)
      put ": "
      below (.constant true)
    put " \x7d"
  | _ => fail .invalid

/-- A constant in braces, unless it is within another. -/
def braced (inValue : Bool) (constant : Scan Unit) : Scan Unit := do
  if !inValue then put "\x7b"
  constant
  if !inValue then put "\x7d"

/-- A constant. -/
def constant (below : Option Below) (inValue : Bool) : Scan Unit := do
  let tag ← token Token.next
  let below ← enter below
  if isUnsigned tag then unsigned
  else if isSigned tag then
    if ← eat 'n' then put "-"
    unsigned
  else
    match tag with
    | 'p' => put "_"
    | 'b' => truth
    | 'c' => character
    | 'e' => braced inValue do
      put "*"
      text
    | 'R' =>
      if ← eat 'e' then text
      else braced inValue do
        put "&"
        below (.constant true)
    | 'Q' => braced inValue do
      put "&mut "
      below (.constant true)
    | 'A' => braced inValue do
      put "["
      let _ ← list (below (.constant true))
      put "]"
    | 'T' => braced inValue do
      put "("
      let count ← list (below (.constant true))
      put (if count = 1 then ",)" else ")")
    | 'V' => braced inValue (namedValue below)
    | 'B' => below (.reference (.constant inValue))
    | _ => fail .invalid

/-- A reference behind its letter. Its target is read only if it is to be shown. -/
def reference (below : Option Below) (target : Target) : Scan Unit := do
  let offset ← token Token.referenceTarget
  let below ← enter below
  if (← read).silent then return
  let here := (← get).place
  modify fun page => { page with place := .ok offset }
  match target with
  | .path inValue => below (.path inValue)
  | .type => below .type
  | .constant inValue => below (.constant inValue)
  | .openPath => closed (openPath below)
  modify fun page => { page with place := here }

/-- **A node** that is nested at most so deep. -/
def node : Nat → Node → Scan Unit
  | depth, n =>
    let below :=
      match depth with
      | 0 => none
      | depth + 1 => some (node depth)
    closed
      (match n with
      | .path inValue => path below inValue
      | .type => type below
      | .constant inValue => constant below inValue
      | .reference target => reference below target)

end Scan

end ArcCoverage.Symbol.TaggedPath
