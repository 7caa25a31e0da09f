/-
# Names

| spelled | name |
| --- | --- |
| `3foo` | `foo` |
| `St3foo` | `std::foo` |
| `N1a1bE` | `a::b` |
| `1aIiE` | `a<int>` |
| `Z1fvE1a` | `f()::a` |
| `C1`, `D1` | a constructor, a destructor |
| `pl`, `cvi` | `operator+`, `operator int` |
| `UlvE_`, `Ut_` | a closure, an unnamed type |

The steps of a nested name are parts in turn. The last is none: what stands for it is the name.
-/
import ArcCoverage.Symbol.Encoding.Grammar.Rule

namespace ArcCoverage.Symbol.Encoding.Scan

/-- A name. -/
def name (below : Below) : Scan Name := do
  match ← attempt (below .nestedName) with
  | some name => return name
  | none =>
    match ← attempt (below .unscoped) with
    | some part =>
      if (← peek) ≠ some 'I' then return .plain part
      let part ← remember part
      return .template part (← below .args)
    | none =>
      match ← attempt (below .template) with
      | some part => return .template part (← below .args)
      | none => below .localName

/-- A name without scope, or in `std`. -/
def unscoped (below : Below) : Scan Part := do
  if ← eat "St" then return .inStd (← below .unqualified)
  return .plain (← below .unqualified)

/-- A name in front of template arguments: a new part, or one that was there before. -/
def template (room : Nat) (below : Below) : Scan Part :=
  firstOf [
    do remember (← below .unscoped),
    substitution room]

/-- A nested name. -/
def nestedName (room : Nat) (below : Below) : Scan Name := do
  expect "N"
  let qualifiers ← qualifiers room
  let object ← attempt (objectKind room)
  let part ← below .scope
  expect "E"
  if part.endsNested then return .nested qualifiers object part else mismatch

/-- The steps of a scope as long as there are any, at most `fuel`. -/
def scopeFrom (below : Below) : Nat → Option Part → Scan Part
  | 0, _ => mismatch
  | fuel + 1, outer => do
    match ← below (.scopeStep outer) with
    | some part => scopeFrom below fuel part
    | none =>
      match outer with
      | some part => return part
      | none => mismatch

/-- The scope and the name in a nested name. -/
def scope (below : Below) : Scan Part := do
  scopeFrom below ((← get).rest.length + 1) none

/-- A step of a scope, which is a part unless the nested name ends with it. -/
def keep (part : Part) : Scan (Option Part) := do
  if (← peek) = some 'E' then return part else return ← remember part

/-- A name within the steps before it, if there are any. -/
def withinScope (outer : Option Part) (name : Unqualified) : Part :=
  match outer with
  | some outer => .nested outer name
  | none => .plain name

/-- Whether a name may begin with a character. -/
def mayBeginName (c : Char) : Bool := isDigit c || isSmall c || ['C', 'D', 'L', 'U'].contains c

/-- The next step of a scope. -/
def scopeStep (room : Nat) (below : Below) (outer : Option Part) : Scan (Option Part) := do
  match ← peek with
  | none => return none
  | some 'S' => return ← substitution room
  | some 'T' => keep (.parameter (← templateParameter room))
  | some 'D' =>
    match ← attempt (below .typeOfExpr) with
    | some part => keep part
    | none => keep (withinScope outer (← below .unqualified))
  | some c =>
    match outer with
    | none => if mayBeginName c then keep (.plain (← below .unqualified)) else return none
    | some outer =>
      if c = 'I' then keep (.withArgs outer (← below .args))
      else if isDigit c then
        let name ← sourceName room
        if ← eat "M" then keep (.dataMember outer name)
        else keep (.nested outer (.source name (← tags room)))
      else if mayBeginName c then keep (.nested outer (← below .unqualified))
      else return none

/-- A name within a function, the name of a text, or a name within a default argument. -/
def localName (room : Nat) (below : Below) : Scan Name := do
  expect "Z"
  let outer ← below .entity
  expect "E"
  if ← eat "s" then
    optDiscriminator room
    return .textWithin outer
  if ← eat "d" then
    let _ ← attempt (integer room)
    expect "_"
    return .withinDefault outer (← below .name)
  let name ← below .name
  optDiscriminator room
  return .within outer name

/-- An optional number up to a `_`. -/
def optNumber : Scan (Option Nat) := do
  let number ← attempt natural
  expect "_"
  return number

/-- A name of internal linkage. -/
def internalName (room : Nat) : Scan Unqualified := do
  expect "L"
  let name ← sourceName room
  optDiscriminator room
  return .source name []

/-- An unnamed type. -/
def unnamedType (room : Nat) : Scan Unqualified := enter room fun _ => do
  expect "Ut"
  return .unnamed (← optNumber) []

/-- A name with tags. -/
def withTags (tags : List String) : Unqualified → Unqualified
  | .operator name _ => .operator name tags
  | .constructor inherited _ => .constructor inherited tags
  | .destructor _ => .destructor tags
  | .source name _ => .source name tags
  | .closure parameters number _ => .closure parameters number tags
  | .unnamed number _ => .unnamed number tags

/-- A name without the scope around it. -/
def unqualified (room : Nat) (below : Below) : Scan Unqualified := do
  let name ← firstOf [
    do return .operator (← below (.operator false)) [],
    below .structor,
    internalName room,
    do return .source (← sourceName room) [],
    below .closure,
    unnamedType room]
  return withTags (← tags room) name

/-- What a conversion converts to. -/
def conversionType (below : Below) : Scan Part := do
  let outside := (← get).inConversion
  modify fun cursor => { cursor with inConversion := true }
  let type ← below .type
  modify fun cursor => { cursor with inConversion := outside }
  return type

/-- The name of an operator. -/
def operatorName (room : Nat) (below : Below) (inExpr : Bool) : Scan OperatorName := do
  match ← attempt (operator room) with
  | some operator => return .symbol operator
  | none =>
    if ← eat "cv" then
      return .conversion (← if inExpr then below .type else conversionType below)
    if ← eat "li" then return .literal (← sourceName room)
    expect "v"
    match (← peek).bind digit? with
    | some n =>
      skip 1
      return .vendor n (← sourceName room)
    | none => mismatch

/-- A constructor or a destructor. -/
def structor (below : Below) : Scan Unqualified := do
  if ← eat "C" then
    let inherits ← eat "I"
    if !(← eatAny ["1", "2", "3", "4"]) then mismatch
    if inherits then return .constructor (← below .type) [] else return .constructor none []
  expect "D"
  if ← eatAny ["0", "1", "2", "4"] then return .destructor [] else mismatch

/-- A closure. -/
def closure (below : Below) : Scan Unqualified := do
  expect "Ul"
  let parameters ← below .closureParameters
  expect "E"
  return .closure parameters (← optNumber) []

/-- The parameters of a closure. -/
def closureParameters (below : Below) : Scan (List Part) := do
  if ← eat "v" then return [] else manyOne (below .type)

end ArcCoverage.Symbol.Encoding.Scan
