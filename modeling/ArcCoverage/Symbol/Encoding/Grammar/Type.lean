/-
# Types

| spelled | type |
| --- | --- |
| `i`, `Dn` | a basic type |
| `3foo`, `Ts3foo` | a class or an enumeration |
| `S_` | a part that was there before |
| `FivE` | a function |
| `A3_i`, `Dv4_f` | an array, a vector |
| `M1Ai` | a member of a class |
| `T_`, `T_IiE` | a template parameter, with arguments or without |
| `DTgE` | the type of an expression |
| `Ki` | a type with qualifiers |
| `Pi` `Ri` `Oi` `Ci` `Gi` | pointers, references, complex and imaginary numbers |
| `U3fooi` | a type with a qualifier of a vendor |
| `Dpi` | a pack |

All but the basic types are parts.
-/
import ArcCoverage.Symbol.Encoding.Grammar.Rule

namespace ArcCoverage.Symbol.Encoding.Scan

/-- A part that was there before, without template arguments. -/
def plainSubstitution (room : Nat) : Scan Part := do
  let part ← substitution room
  if (← peek) = some 'I' then mismatch else return part

/-- Whether template arguments come next, and others behind them. Parts in them do not count. -/
def hasMoreArgs (below : Below) : Scan Bool := do
  let start ← get
  let args ← attempt (below .args)
  let next ← peek
  set start
  return args.isNone || next = some 'I'

/-- A template parameter without arguments. In a conversion the arguments behind it may be those of
the conversion. -/
def plainParameter (room : Nat) (below : Below) : Scan Part := do
  let parameter := Part.parameter (← templateParameter room)
  if (← peek) ≠ some 'I' then return parameter
  if !(← get).inConversion then mismatch
  if ← hasMoreArgs below then mismatch
  return parameter

/-- A type with qualifiers, of which there must be some. -/
def qualifiedType (room : Nat) (below : Below) : Scan Part := do
  let qualifiers ← qualifiers room
  if qualifiers.isEmpty then mismatch
  remember (.qualified qualifiers (← below .type))

/-- A type behind letters. -/
def markedType (room : Nat) (below : Below) : Scan Part := do
  if ← eat "P" then remember (.pointer (← below .type))
  else if ← eat "R" then remember (.lvalueRef (← below .type))
  else if ← eat "O" then remember (.rvalueRef (← below .type))
  else if ← eat "C" then remember (.complex (← below .type))
  else if ← eat "G" then remember (.imaginary (← below .type))
  else if ← eat "U" then
    let name ← sourceName room
    let args ← attempt (below .args)
    remember (.vendorQualified name args (← below .type))
  else
    expect "Dp"
    remember (.expansion (← below .type))

/-- A template that is a template parameter or a part, with its arguments. -/
def appliedTemplate (below : Below) (template : Part) : Scan Part := do
  remember (.applied template (← below .args))

/-- A type. -/
def type (room : Nat) (below : Below) : Scan Part := do
  let simple ← attempt (firstOf [
    below .basic,
    do remember (← below .classOrEnum),
    plainSubstitution room,
    do remember (← below .function),
    do remember (← below .array),
    do remember (← below .vector),
    do remember (← below .memberPointer),
    do remember (← plainParameter room below)])
  match simple with
  | some part => return part
  | none =>
    match ← attempt (below .templateTemplate) with
    | some template => appliedTemplate below template
    | none =>
      match ← attempt (below .typeOfExpr) with
      | some part => remember part
      | none =>
        if (← peek).any ['r', 'V', 'K'].contains then qualifiedType room below
        else markedType room below

/-- A basic type, or a type of a vendor. -/
def basic (room : Nat) (below : Below) : Scan Part :=
  firstOf [
    do return .basic (← basicType room),
    below .sized,
    do
      expect "u"
      return .vendor (← sourceName room)]

/-- A number of bits: a number, or where it may be one, an expression. -/
def size (below : Below) (mayBeExpr : Bool) : Scan Expr := do
  if (← peek) = some '_' then mismatch
  match ← attempt natural with
  | some n => return .number n
  | none => if mayBeExpr then below .expr else mismatch

/-- A type with a number in its name. -/
def sized (below : Below) : Scan Part := do
  if ← eat "DF" then
    let bits ← size below false
    if ← eat "x" then return .sized "_Float" bits "x"
    expect "_"
    return .sized "_Float" bits ""
  let word ←
    if ← eat "DB" then pure "signed _BitInt("
    else if ← eat "DU" then pure "unsigned _BitInt("
    else mismatch
  let bits ← size below true
  expect "_"
  return .sized word bits ")"

/-- A class or an enumeration. -/
def classOrEnum (below : Below) : Scan Part := do
  match ← attempt (below .name) with
  | some name => return .named "" name
  | none =>
    expect "T"
    if ← eat "s" then return .named "class " (← below .name)
    if ← eat "u" then return .named "union " (← below .name)
    expect "e"
    return .named "enum " (← below .name)

/-- A function. -/
def function (room : Nat) (below : Below) : Scan Part := do
  let qualifiers ← qualifiers room
  let noexcept ← attempt (below .noexcept)
  let _ ← eat "Dx"
  expect "F"
  let _ ← eat "Y"
  let types ← below .signature
  let object ← attempt (objectKind room)
  expect "E"
  return .function qualifiers noexcept.isSome noexcept.join types object

/-- That a function throws nothing, and on what condition. -/
def noexcept (below : Below) : Scan (Option Expr) := do
  if ← eat "Do" then return none
  expect "DO"
  let condition ← below .expr
  expect "E"
  return condition

/-- The types of the result and the parameters. -/
def signature (below : Below) : Scan (List Part) := manyOne (below .type)

/-- An array. -/
def array (below : Below) : Scan Part := do
  expect "A"
  let size ← attempt (firstOf [do return .number (← natural), below .expr])
  expect "_"
  return .array size (← below .type)

/-- A vector. -/
def vector (below : Below) : Scan Part := do
  expect "Dv"
  match ← attempt natural with
  | some n =>
    expect "_"
    return .vector (.number n) (← below .type)
  | none =>
    expect "_"
    let size ← below .expr
    expect "_"
    return .vector size (← below .type)

/-- A pointer to a member of a class. -/
def memberPointer (below : Below) : Scan Part := do
  expect "M"
  let scope ← below .type
  return .member scope (← below .type)

/-- A template that is a template parameter or a part. -/
def templateTemplate (room : Nat) : Scan Part :=
  firstOf [
    substitution room,
    do remember (.parameter (← templateParameter room))]

/-- The type of an expression. -/
def typeOfExpr (below : Below) : Scan Part := do
  expect "D"
  if !(← eatAny ["t", "T"]) then mismatch
  let e ← below .expr
  expect "E"
  return .ofExpr e

/-- Template arguments. -/
def args (below : Below) : Scan (List Arg) := do
  expect "I"
  let args ← many (below .arg)
  expect "E"
  return args

/-- A template argument: an expression, a type or a pack. -/
def arg (below : Below) : Scan Arg := do
  if ← eat "X" then
    let e ← below .expr
    expect "E"
    return .expr e
  firstOf [
    do return .expr (← below .primary),
    do return .type (← below .type),
    do
      if !(← eatAny ["J", "I"]) then mismatch
      let args ← many (below .arg)
      expect "E"
      return .pack args]

end ArcCoverage.Symbol.Encoding.Scan
