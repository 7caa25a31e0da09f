/-
# Types and names

| wrapping | written |
| --- | --- |
| a pointer, a reference | `*`, `&`; two references are one, the weaker |
| qualifiers | ` const` |
| an array | ` [3]`, and parentheses around what is within |
| a vector | ` __vector(4)` |
| a member of a class | ` A::*` |
| parameters | `(int)`, and parentheses around what is within |
-/
import ArcCoverage.Symbol.Encoding.Layout.Page

namespace ArcCoverage.Symbol.Encoding

/-- The kinds of pieces that are written. -/
inductive Piece where
  | part (part : Part)
  | name (name : Name)
  | entity (entity : Entity)
  | whole (whole : Whole)
  | arg (arg : Arg)
  | args (args : List Arg)
  | expr (e : Expr)
  | wrapping (wrapping : Wrapping)

/-- How pieces are written in a scope. -/
abbrev Writer := Scope → Piece → Write Unit

namespace Write

/-- Wrappings as long as there are any, at most `fuel`. -/
def wrappingsFrom (writer : Writer) (scope : Scope) : Nat → Write Unit
  | 0 => return ()
  | fuel + 1 => do
    match ← pop with
    | some wrapping =>
      writer scope (.wrapping wrapping)
      wrappingsFrom writer scope fuel
    | none => return ()

/-- All wrappings. -/
def wrappings (writer : Writer) (scope : Scope) : Write Unit := do
  wrappingsFrom writer scope (← get).wrappings.length

/-- Whether a wrapping stands behind parameters. -/
def waits : Wrapping → Bool
  | .behind qualifiers _ => !qualifiers.isEmpty
  | _ => false

/-- The wrappings that stand in front of parameters, at most `fuel`; the others wait. -/
def frontFrom (writer : Writer) (scope : Scope) :
    Nat → List (Nat × Wrapping) → Write (List (Nat × Wrapping))
  | 0, waiting => return waiting
  | fuel + 1, waiting => do
    match (← get).wrappings with
    | [] => return waiting
    | (number, wrapping) :: rest =>
      modify fun page => { page with wrappings := rest }
      if waits wrapping then frontFrom writer scope fuel (waiting ++ [(number, wrapping)])
      else
        writer scope (.wrapping wrapping)
        frontFrom writer scope fuel waiting

/-- The wrappings that stand in front of parameters. -/
def front (writer : Writer) (scope : Scope) : Write Unit := do
  let waiting ← frontFrom writer scope (← get).wrappings.length []
  modify fun page => { page with wrappings := waiting }

/-- Whether a wrapping needs parentheses in front of parameters, and then a space before them. -/
def parentheses : Wrapping → Option Bool
  | .member _ | .qualified _ _ => some true
  | .pointer | .lvalueRef | .rvalueRef => some false
  | _ => none

/-- Whether the only parameter is none. -/
def isVoid : List Part → Bool
  | [.basic type] => type.is "v"
  | _ => false

/-- **Parameters,** with what belongs before and behind them. -/
def parameters (writer : Writer) (scope : Scope) (types : List Part) : Write Unit := do
  let around := (← get).wrappings.findSome? fun wrapping => parentheses wrapping.2
  if let some isSpaced := around then
    if isSpaced || !((← last).any fun c => c = '(' || c = '*') then space
    put "("
  front writer scope
  if around.isSome then put ")"
  put "("
  if isVoid types then put ")"
  else
    commas (fun type => writer scope (.part type)) types
    put ")"
    wrappings writer scope

/-- A type within a wrapping. -/
def wrapped (writer : Writer) (scope : Scope) (wrapping : Wrapping) (type : Part) :
    Write Unit := do
  let number ← push wrapping
  writer scope (.part type)
  if ← popIf number then writer scope (.wrapping wrapping)

/-- A function type. -/
def function (writer : Writer) (scope : Scope) (behind : Wrapping) (types : List Part) :
    Write Unit := do
  let outer ← push behind
  let signature := Wrapping.signature (types.drop 1)
  let inner ← push signature
  (types.take 1).forM fun result => writer scope (.part result)
  if ← popIf inner then
    space
    writer scope (.wrapping signature)
  if ← popIf outer then writer scope (.wrapping behind)

/-- The qualifiers of a function and the kind of object it is for. -/
def behind (qualifiers : Qualifiers) (object : Option ObjectKind) : Write Unit := do
  words qualifiers.words
  words (object.toList.map ObjectKind.text)

/-- A reference; those around it are one with it. -/
def reference (isRvalue : Bool) : List (Nat × Wrapping) → Write Unit
  | (_, .lvalueRef) :: rest =>
    if isRvalue then return () else do
      modify fun page => { page with wrappings := rest }
      reference isRvalue rest
  | (_, .rvalueRef) :: rest => do
    modify fun page => { page with wrappings := rest }
    reference isRvalue rest
  | _ => put (if isRvalue then "&&" else "&")

/-- Whether a wrapping is an array, with qualifiers or without, and whether it has none. -/
def arrayKind : Wrapping → Bool × Bool
  | .array _ => (true, true)
  | .qualified _ isArray => (isArray, false)
  | _ => (false, false)

/-- What is within an array, at most `fuel` wrappings. The answer is whether a space stands before the
size. -/
def withinArray (writer : Writer) (scope : Scope) : Nat → Bool → Write Bool
  | 0, spaced => return spaced
  | fuel + 1, spaced => do
    match ← pop with
    | none => return spaced
    | some wrapping =>
      let (isArray, isPlain) := arrayKind wrapping
      if isArray then
        writer scope (.wrapping wrapping)
        withinArray writer scope fuel (spaced && !isPlain)
      else
        space
        match wrapping with
        | .qualified _ _ =>
          writer scope (.wrapping wrapping)
          space
          put "("
        | _ =>
          put "("
          writer scope (.wrapping wrapping)
        wrappings writer scope
        put ")"
        withinArray writer scope fuel spaced

/-- **A wrapping.** -/
def wrapping (writer : Writer) (scope : Scope) : Wrapping → Write Unit
  | .parameters args types =>
    parameters writer (scope.within args) (if args.isSome then types.drop 1 else types)
  | .signature types => parameters writer scope types
  | .behind qualifiers object => behind qualifiers object
  | .array size => do
    let spaced ← withinArray writer scope (← get).wrappings.length true
    if spaced then space
    put "["
    size.toList.forM fun size => writer scope (.expr size)
    put "]"
  | .vector size => do
    put " __vector("
    writer scope (.expr size)
    put ")"
  | .member type => do
    if (← last) ≠ some '(' then space
    writer scope (.part type)
    put "::*"
  | .qualified qualifiers _ => words qualifiers.words
  | .pointer => put "*"
  | .lvalueRef => do reference false (← get).wrappings
  | .rvalueRef => do reference true (← get).wrappings

/-- A closure. -/
def closure (writer : Writer) (scope : Scope) (types : List Part) (number : Option Nat) :
    Write Unit :=
  apart do
    put "\x7blambda("
    modify fun page => { page with inClosure := true }
    commas (fun type => writer scope (.part type)) types
    modify fun page => { page with inClosure := false }
    put (")#" ++ toString ((number.map (· + 2)).getD 1) ++ "\x7d")

/-- An unnamed type. -/
def unnamed (number : Option Nat) : Write Unit :=
  put ("\x7bunnamed type#" ++ toString ((number.map (· + 1)).getD 1) ++ "\x7d")

/-- The class that a constructor is called after. -/
def className (writer : Writer) : ClassName → Write Unit
  | .word text => put text
  | .source name => source name
  | .closure types number => closure writer {} types number
  | .unnamed number => do
    match (← get).lastName with
    | some name => put name
    | none => unnamed number

/-- A name of an operator. -/
def operatorName (writer : Writer) (scope : Scope) : OperatorName → Write Unit
  | .symbol operator => do
    if operator.isWord then space
    put operator.text
  | .conversion type => do
    space
    writer (scope.within type.typeArgs) (.part type)
  | .literal name => do
    source name
    put "::operator \"\""
  | .vendor operands name => do
    source name
    put ("::operator " ++ toString operands)

/-- The tags of a name. -/
def tags (texts : List String) : Write Unit :=
  texts.forM fun text => do
    put "[abi:"
    source text
    put "]"

/-- A name without the scope around it. -/
def unqualified (writer : Writer) (scope : Scope) : Unqualified → Write Unit
  | .operator name texts => do
    put "operator"
    operatorName writer scope name
    tags texts
  | .constructor inherited texts => do
    match (inherited.map Part.className?).getD scope.className with
    | some name => className writer name
    | none => failure
    tags texts
  | .destructor texts => do
    put "~"
    match scope.className with
    | some name => className writer name
    | none => failure
    tags texts
  | .source name texts => do
    source name
    tags texts
  | .closure types number texts => do
    closure writer scope types number
    tags texts
  | .unnamed number texts => do
    unnamed number
    tags texts

/-- A template argument. -/
def arg (writer : Writer) (scope : Scope) : Arg → Write Unit
  | .type type => writer scope (.part type)
  | .expr e => writer scope (.expr e)
  | .pack args => do
    modify fun page => { page with sawPack := true }
    commas (fun a => writer scope (.arg a)) args

/-- Template arguments. Angle brackets do not touch each other. -/
def args (writer : Writer) (scope : Scope) (list : List Arg) : Write Unit :=
  apart do
    if (← last) = some '<' then put " "
    put "<"
    commas (fun a => writer scope (.arg a)) list
    if (← last) = some '>' then put " "
    put ">"

/-- A template parameter: the argument that stands for it. -/
def parameter (writer : Writer) (scope : Scope) (index : Nat) : Write Unit := do
  if (← get).inClosure then put ("auto:" ++ toString (index + 1))
  else
    match scope.arg? index with
    | some a => writer scope (.arg a)
    | none => failure

/-- **A type, or the beginning of a name.** -/
def part (writer : Writer) (scope : Scope) : Part → Write Unit
  | .wellKnown name => put name.text
  | .basic type => put type.text
  | .vendor name => source name
  | .sized before size behind => do
    put before
    writer scope (.expr size)
    put behind
  | .named key name => do
    put key
    writer scope (.name name)
  | .function qualifiers isNoexcept condition types object => do
    function writer scope (.behind qualifiers object) types
    if isNoexcept then
      space
      put "noexcept"
      condition.toList.forM fun e => do
        put "("
        writer scope (.expr e)
        put ")"
  | .array size element => wrapped writer scope (.array size) element
  | .vector size element => wrapped writer scope (.vector size) element
  | .member type target => wrapped writer scope (.member type) target
  | .parameter index => parameter writer scope index
  | .applied template list | .withArgs template list => do
    writer scope (.part template)
    writer scope (.args list)
  | .ofExpr e => do
    put "decltype ("
    writer scope (.expr e)
    put ")"
  | .qualified qualifiers type => wrapped writer scope (.qualified qualifiers type.isArray) type
  | .pointer type => wrapped writer scope .pointer type
  | .lvalueRef type => wrapped writer scope .lvalueRef type
  | .rvalueRef type => wrapped writer scope .rvalueRef type
  | .complex type => do
    writer scope (.part type)
    put " complex"
  | .imaginary type => do
    writer scope (.part type)
    put " imaginary"
  | .vendorQualified name list type => do
    writer scope (.part type)
    put " "
    source name
    list.toList.forM fun list => writer scope (.args list)
  | .expansion type => do
    writer scope (.part type)
    if !(← get).sawPack then put "..."
  | .plain name => unqualified writer scope name
  | .inStd name => do
    put "std::"
    unqualified writer scope name
  | .nested outer name => do
    writer scope (.part outer)
    put "::"
    unqualified writer scope name
  | .dataMember outer name => do
    writer scope (.part outer)
    put "::"
    source name

/-- **A name.** What is wrapped around a nested name goes in front of its qualifiers. -/
def name (writer : Writer) (scope : Scope) : Name → Write Unit
  | .plain part => writer scope (.part part)
  | .template part list => do
    writer scope (.part part)
    writer scope (.args list)
  | .nested qualifiers object part => do
    writer scope (.part part)
    if let some wrapping := ← pop then writer scope (.wrapping wrapping)
    behind qualifiers object
  | .within outer name => do
    writer scope (.entity outer)
    put "::"
    writer scope (.name name)
  | .textWithin outer => do
    writer scope (.entity outer)
    put "::string literal"
  | .withinDefault outer _ => writer scope (.entity outer)

end Write

end ArcCoverage.Symbol.Encoding
