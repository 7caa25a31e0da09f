/-
# The grammar of Itanium symbols

A symbol starts with `_Z`. Behind that it encodes a name and, for a function, the types of its
parameters; the result of a template comes first. A symbol that a compiler made a copy of has marks at
its end. A text that is no symbol may still be a type.

All of a symbol must be read, and no piece of it may be nested too deep.
-/
import ArcCoverage.Symbol.Encoding.Grammar.Expression
import ArcCoverage.Symbol.Encoding.Grammar.Name
import ArcCoverage.Symbol.Encoding.Grammar.Type

namespace ArcCoverage.Symbol.Encoding

namespace Scan

/-- A symbol, or a type alone. -/
def whole (room : Nat) (below : Below) : Scan Whole := do
  if ← eatAny ["_Z", "__Z"] then
    let entity ← below .entity
    return .encoded entity (← many (copy room))
  if ← eatAny ["___Z", "____Z"] then
    let entity ← below .entity
    expect "_block_invoke"
    if ← eatAny ["_", "."] then
      let _ ← natural
    else
      let _ ← attempt natural
    return .block entity
  if ← eat "_GLOBAL_" then return ← below .program
  return .type (← below .type)

/-- What is run before or after a program for a symbol. -/
def program (below : Below) : Scan Whole := do
  if !(← eatAny ["_", ".", "$"]) then mismatch
  if ← eat "I_" then return .startup (← below .whole)
  expect "D_"
  return .shutdown (← below .whole)

/-- A name with, for a function, the types that are encoded for it. -/
def entity (below : Below) : Scan Entity := do
  match ← attempt (below .name) with
  | some name =>
    match ← attempt (below .signature) with
    | some types => return .function name types
    | none => return .data name
  | none => below .special

/-- What a compiler adds for a type, an object or a function. -/
def special (room : Nat) (below : Below) : Scan Entity := do
  if ← eat "TV" then return .ofType .virtualTable (← below .type)
  if ← eat "TT" then return .ofType .tableOfTables (← below .type)
  if ← eat "TI" then return .ofType .information (← below .type)
  if ← eat "TS" then return .ofType .informationName (← below .type)
  if ← eat "TF" then return .ofType .informationFunction (← below .type)
  if ← eat "TH" then return .ofName .threadInit (← below .name)
  if ← eat "TW" then return .ofName .threadWrapper (← below .name)
  if ← eat "GV" then return .ofName .guard (← below .name)
  if ← eat "Tc" then
    let this ← callOffset room
    let result ← callOffset room
    return .thunk [this, result] (← below .entity)
  if ← eat "TC" then
    let whole ← below .type
    let _ ← natural
    expect "_"
    return .constructionTable whole (← below .type)
  if ← eat "GR" then
    let name ← below .name
    let number ← counted (sequence room)
    expect "_"
    return .temporary name number
  if ← eat "GTn" then return .transaction false (← below .entity)
  if ← eat "GT" then
    skip 1
    return .transaction true (← below .entity)
  if ← eat "Gr" then
    let _ ← natural
    expect "_"
    return .resource (String.join (← manyOne (resource room)))
  expect "T"
  let offset ← callOffset room
  return .thunk [offset] (← below .entity)

end Scan

/-- What a rule reads where so many levels are left. -/
def reading : Nat → {α : Type} → Rule α → Scan α
  | 0, _, _ => throw .tooDeep
  | room + 1, _, rule =>
    let below : Below := fun rule => reading room rule
    match rule with
    | .whole => Scan.whole room below
    | .program => Scan.program below
    | .entity => Scan.entity below
    | .special => Scan.special room below
    | .name => Scan.name below
    | .nestedName => Scan.nestedName room below
    | .localName => Scan.localName room below
    | .unscoped => Scan.unscoped below
    | .template => Scan.template room below
    | .scope => Scan.scope below
    | .scopeStep outer => Scan.scopeStep room below outer
    | .unqualified => Scan.unqualified room below
    | .operator inExpr => Scan.operatorName room below inExpr
    | .structor => Scan.structor below
    | .closure => Scan.closure below
    | .closureParameters => Scan.closureParameters below
    | .type => Scan.type room below
    | .basic => Scan.basic room below
    | .sized => Scan.sized below
    | .classOrEnum => Scan.classOrEnum below
    | .function => Scan.function room below
    | .noexcept => Scan.noexcept below
    | .signature => Scan.signature below
    | .array => Scan.array below
    | .vector => Scan.vector below
    | .memberPointer => Scan.memberPointer below
    | .templateTemplate => Scan.templateTemplate room
    | .typeOfExpr => Scan.typeOfExpr below
    | .args => Scan.args below
    | .arg => Scan.arg below
    | .expr => Scan.expr room below
    | .primary => Scan.primary below
    | .unresolved => Scan.unresolved below
    | .unresolvedType => Scan.unresolvedType room below
    | .level => below .simple
    | .simple => Scan.simple room below
    | .base isGlobal scopes => Scan.base below isGlobal scopes
    | .destructor => Scan.destructor below
    | .initializer => Scan.initializer below
    | .memberName => Scan.memberName below
    | .subobject => Scan.subobject below

/-- The levels of nesting that are read. -/
def levels : Nat := 95

/-- **What a text encodes,** if all of it is a symbol or a type. -/
def Whole.ofChars? (cs : List Char) : Option Whole :=
  match (reading levels .whole).run.run { rest := cs } with
  | (.ok whole, cursor) => if cursor.rest.isEmpty then some whole else none
  | (.error _, _) => none

end ArcCoverage.Symbol.Encoding
