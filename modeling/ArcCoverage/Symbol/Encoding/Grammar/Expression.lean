/-
# Expressions

Types may depend on expressions. Most begin with two letters:

| letters | expression |
| --- | --- |
| `pp_` `mm_` | steps in front of an operand |
| `cl` `cv` `tl` `il` | calls, conversions and lists |
| `dc` `sc` `cc` `rc` | casts |
| `ti` `te` `st` `sz` `at` `az` `nx` | questions about a type or an expression |
| `nw` `na` `dl` `da`, with `gs` in front or not | allocations |
| `dt` `pt` `ds` `so` | members |
| `sZ` `sP` `sp` | packs |
| `tw` `tr` | exceptions |
| `sr` `gs` `dn` `on` | names that are not resolved |
| those of an operator | its operands behind it |
-/
import ArcCoverage.Symbol.Encoding.Grammar.Rule

namespace ArcCoverage.Symbol.Encoding.Scan

/-- An allocation with its place, its type and what it is initialised with. -/
def allocation (below : Below) (word : String) : Scan Expr := do
  let place ← many (below .expr)
  expect "_"
  let type ← below .type
  if ← eat "E" then return .allocate word place type none
  return .allocate word place type (← below .initializer)

/-- An allocation or its end, in which a word may stand in front. -/
def memory (below : Below) (word : String) : Scan Expr := do
  if ← eat "nw" then allocation below (word ++ "new")
  else if ← eat "na" then allocation below (word ++ "new[]")
  else if ← eat "dl" then return .release (word ++ "delete ") (← below .expr)
  else
    expect "da"
    return .release (word ++ "delete[] ") (← below .expr)

/-- An operand with a name of one of its members behind it. -/
def memberOf (below : Below) (arrow : String) : Scan Expr := do
  let object ← below .expr
  return .member arrow object (← below .memberName)

/-- A cast by a word. -/
def castBy (below : Below) (word : String) : Scan Expr := do
  let type ← below .type
  return .cast word type (← below .expr)

/-- Expressions up to an `E`. -/
def exprsToEnd (below : Below) : Scan (List Expr) := do
  let es ← many (below .expr)
  expect "E"
  return es

/-- A template parameter. -/
def parameter (room : Nat) : Scan Expr := do return .parameter (← templateParameter room)

/-- A parameter of a function. -/
def functionParameterExpr (room : Nat) : Scan Expr := do
  return .functionParameter (← functionParameter room)

/-- An expression by its first two letters, if they are its own. -/
def headed (room : Nat) (below : Below) : String → Option (Scan Expr)
  | "cl" => some do
    let function ← below .expr
    return .call function (← exprsToEnd below)
  | "cv" => some do
    let type ← below .type
    if ← eat "_" then return .construct type (← exprsToEnd below)
    return .convert type (← below .expr)
  | "tl" => some do
    let type ← below .type
    return .braced type (← exprsToEnd below)
  | "il" => some do
    let e ← below .expr
    expect "E"
    return .list e
  | "dc" => some (castBy below "dynamic_cast")
  | "sc" => some (castBy below "static_cast")
  | "cc" => some (castBy below "const_cast")
  | "rc" => some (castBy below "reinterpret_cast")
  | "ti" => some do return .ofType "typeid" (← below .type)
  | "te" => some do return .ofExpr "typeid" (← below .expr)
  | "st" => some do return .ofType "sizeof" (← below .type)
  | "sz" => some do return .ofExpr "sizeof" (← below .expr)
  | "at" => some do return .ofType "alignof" (← below .type)
  | "az" => some do return .ofExpr "alignof" (← below .expr)
  | "nx" => some do return .ofExpr "noexcept" (← below .expr)
  | "so" => some (below .subobject)
  | "dt" => some (memberOf below ".")
  | "pt" => some (memberOf below "->")
  | "ds" => some do
    let object ← below .expr
    return .memberPointer object (← below .expr)
  | "sZ" => some do
    return .packSize (← firstOf [parameter room, functionParameterExpr room])
  | "sP" => some do
    let args ← many (below .arg)
    expect "E"
    return .argsSize args
  | "sp" => some do return .expansion (← below .expr)
  | "tw" => some do return .throw (some (← below .expr))
  | "tr" => some do return .throw none
  | _ => none

/-- An operator with its operands. -/
def operation (below : Below) : Scan Expr := do
  let operator ← below (.operator true)
  match operator.operands with
  | 1 => return .unary operator (← below .expr)
  | 2 =>
    let left ← below .expr
    return .binary operator left (← below .expr)
  | 3 =>
    let first ← below .expr
    let second ← below .expr
    return .ternary operator first second (← below .expr)
  | _ => mismatch

/-- An expression. -/
def expr (room : Nat) (below : Below) : Scan Expr := do
  if ← eat "pp_" then return .step "++" (← below .expr)
  if ← eat "mm_" then return .step "--" (← below .expr)
  match headed room below (← ahead 2) with
  | some scan =>
    skip 2
    scan
  | none =>
    firstOf [
      do
        expect "gs"
        memory below "::",
      memory below "",
      parameter room,
      functionParameterExpr room,
      below .unresolved,
      below .primary,
      operation below]

/-- What an allocation is initialised with. -/
def initializer (below : Below) : Scan (List Expr) := do
  expect "pi"
  exprsToEnd below

/-- A name of a member, with template arguments if it has any. -/
def memberName (below : Below) : Scan Name := do
  let part := Part.plain (← below .unqualified)
  match ← attempt (below .args) with
  | some args => return .template part args
  | none => return .plain part

/-- A part of an object. -/
def subobject (below : Below) : Scan Expr := do
  let type ← below .type
  let whole ← below .expr
  let offset ← attempt signed
  expect "E"
  return .subobject type whole (offset.getD 0)

/-- A literal, or a symbol. -/
def primary (below : Below) : Scan Expr := do
  expect "L"
  match ← attempt (below .type) with
  | some type =>
    let value ← span (· != 'E')
    expect "E"
    return .literal type value
  | none =>
    let symbol ← below .whole
    expect "E"
    return .external symbol

/-- A name that is not resolved. -/
def unresolved (below : Below) : Scan Expr := do
  if ← eat "gs" then
    match ← attempt (below (.base true [])) with
    | some e => return e
    | none =>
      expect "sr"
      inLevels true []
  else
    match ← attempt (below (.base false [])) with
    | some e => return e
    | none =>
      expect "sr"
      if ← eat "N" then
        inLevels false [← below .unresolvedType]
      else
        match ← attempt (below .unresolvedType) with
        | some type => below (.base false [type])
        | none => inLevels false []
where
  /-- A name behind the steps of its scope. -/
  inLevels (isGlobal : Bool) (scopes : List Part) : Scan Expr := do
    let levels ← manyOne (below .level)
    expect "E"
    below (.base isGlobal (scopes ++ levels))

/-- A type in the scope of an unresolved name. -/
def unresolvedType (room : Nat) (below : Below) : Scan Part :=
  firstOf [
    do
      let parameter := Part.parameter (← templateParameter room)
      match ← attempt (below .args) with
      | some args => remember (.applied parameter args)
      | none => remember parameter,
    do remember (← below .typeOfExpr),
    substitution room]

/-- A name with template arguments, if it has any. -/
def simple (room : Nat) (below : Below) : Scan Part := do
  let part := Part.plain (.source (← sourceName room) [])
  match ← attempt (below .args) with
  | some args => return .withArgs part args
  | none => return part

/-- An unresolved name in a scope. -/
def base (below : Below) (isGlobal : Bool) (scopes : List Part) : Scan Expr := do
  match ← attempt (below .simple) with
  | some part => return .unresolved isGlobal scopes false part
  | none =>
    if ← eat "dn" then return .unresolved isGlobal scopes true (← below .destructor)
    expect "on"
    let operator ← below (.operator false)
    return .unresolvedOperator isGlobal scopes operator (← attempt (below .args))

/-- What a destructor in an expression is called after. -/
def destructor (below : Below) : Scan Part := firstOf [below .unresolvedType, below .simple]

end ArcCoverage.Symbol.Encoding.Scan
