/-
# The declaration of a symbol

A symbol is shown as the declaration it encodes: the type around the name, as in
`int (*f<char>())(long)`. What a compiler adds is shown in words.
-/
import ArcCoverage.Symbol.Encoding.Grammar
import ArcCoverage.Symbol.Encoding.Layout.Expression

namespace ArcCoverage.Symbol.Encoding

namespace Write

/-- What a compiler adds for a type. -/
def ofType (role : TypeRole) (type : Write Unit) : Write Unit :=
  match role with
  | .virtualTable => do
    put "\x7bvtable("
    type
    put ")\x7d"
  | .tableOfTables => do
    put "\x7bvtt("
    type
    put ")\x7d"
  | .information => do
    put "typeinfo for "
    type
  | .informationName => do
    put "typeinfo name for "
    type
  | .informationFunction => do
    put "typeinfo fn for "
    type

/-- What a compiler adds for an object. -/
def roleText : NameRole → String
  | .guard => "guard variable for "
  | .threadInit => "TLS init function for "
  | .threadWrapper => "TLS wrapper function for "

/-- The offsets of a thunk. -/
def offset : CallOffset → Write Unit
  | .fixed n => put ("\x7boffset(" ++ toString n ++ ")\x7d, ")
  | .virtual n entry =>
    put ("\x7bvirtual offset(" ++ toString n ++ ", " ++ toString entry ++ ")\x7d, ")

/-- A function. The first type is that of the result of a template, unless it has none; it is no
parameter of any template. -/
def declaration (writer : Writer) (scope : Scope) (name : Name) (types : List Part) :
    Write Unit := do
  let scope := (scope.inClass name.className?).within name.args
  if name.args.isSome && !name.hasNoResult then
    (types.take 1).forM fun result => writer scope (.part result)
    put " "
  let parameters := Wrapping.parameters name.args types
  let number ← push parameters
  writer scope (.name name)
  if ← popIf number then writer scope (.wrapping parameters)

/-- **A function, an object or what a compiler adds.** -/
def entity (writer : Writer) (scope : Scope) (e : Entity) : Write Unit :=
  apart
    (match e with
    | .function name types => declaration writer scope name types
    | .data name => writer scope (.name name)
    | .ofType role type => ofType role (writer scope (.part type))
    | .ofName role name => do
      put (roleText role)
      writer scope (.name name)
    | .thunk offsets target => do
      put "\x7bvirtual override thunk("
      offsets.forM offset
      writer scope (.entity target)
      put ")\x7d"
    | .constructionTable whole base => do
      put "construction vtable for "
      writer scope (.part whole)
      put "-in-"
      writer scope (.part base)
    | .temporary name number => do
      put ("reference temporary #" ++ toString number ++ " for ")
      writer scope (.name name)
    | .transaction isSafe target => do
      put (if isSafe then "transaction clone for " else "non-transaction clone for ")
      writer scope (.entity target)
    | .resource text => put ("java resource " ++ text))

/-- A copy that a compiler made. -/
def copy (c : Copy) : Write Unit := do
  put " [clone ."
  source c.label
  c.numbers.forM fun n => put ("." ++ toString n)
  put "]"

/-- **All that a text encodes.** -/
def whole (writer : Writer) (scope : Scope) : Whole → Write Unit
  | .encoded e copies => do
    writer scope (.entity e)
    copies.forM copy
  | .block e => do
    put "invocation function for block in "
    writer scope (.entity e)
  | .type type => writer scope (.part type)
  | .startup w => apart do
    put "global constructors keyed to "
    writer scope (.whole w)
  | .shutdown w => apart do
    put "global destructors keyed to "
    writer scope (.whole w)

/-- A piece that is nested at most so deep. -/
def piece : Nat → Writer
  | 0, _, _ => failure
  | fuel + 1, scope, p =>
    match p with
    | .part p => part (piece fuel) scope p
    | .name n => name (piece fuel) scope n
    | .entity e => entity (piece fuel) scope e
    | .whole w => whole (piece fuel) scope w
    | .arg a => arg (piece fuel) scope a
    | .args list => args (piece fuel) scope list
    | .expr e => expr (piece fuel) scope e
    | .wrapping w => wrapping (piece fuel) scope w

end Write

/-- The deepest nesting that is shown; a template argument that holds itself has no end. -/
def shownLevels : Nat := 1000

/-- What a text encodes as it is shown. -/
def Whole.text? (w : Whole) : Option String :=
  ((Write.piece shownLevels {} (.whole w)).run {}).map fun result =>
    String.ofList result.2.written.reverse

/-- **The declaration that a symbol encodes;** all of it must be one. -/
def read (symbol : List Char) : Option String := (Whole.ofChars? symbol).bind Whole.text?

end ArcCoverage.Symbol.Encoding
