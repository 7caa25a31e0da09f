/-
# Writing while reading

A tagged path is read and shown in one pass. A `Page` holds what was written and where the reader is.
A node that cannot be read leaves a message on the page; from then on the reader is stuck, and every
node that is asked for leaves a `?`. A page is full at a million bytes.

`Scan.closed` bounds the damage: what stops inside of it stops there, unless the page is full.
-/
import ArcCoverage.Symbol.TaggedPath.Token

namespace ArcCoverage.Symbol.TaggedPath

/-- What was written, and where the reader is. -/
structure Page where
  /-- The offset of the reader, or why it is stuck. -/
  place : Except Fault Nat := .ok 0
  /-- How many lifetimes are bound here. -/
  lifetimes : Nat := 0
  /-- Whether the angle brackets of the trait written last are open. -/
  isOpen : Bool := false
  text : String := ""
  /-- The bytes that may still be written. -/
  room : Nat := 1000000

/-- Why a node is left. -/
inductive Leave where
  | node
  | fullPage
  deriving DecidableEq, Repr

/-- What is read, and whether it is read without writing. -/
structure Source where
  symbol : Array Char
  silent : Bool

/-- Reads from a symbol onto a page. -/
abbrev Scan := ReaderT Source (ExceptT Leave (StateM Page))

namespace Scan

/-- A piece of text written, all of it or nothing. -/
def put (piece : String) : Scan Unit := do
  if (← read).silent then return
  let page ← get
  if page.room < piece.utf8ByteSize then throw .fullPage
  set { page with text := page.text ++ piece, room := page.room - piece.utf8ByteSize }

/-- Characters written one by one. -/
def putChars (cs : List Char) : Scan Unit := cs.forM fun c => put (String.ofList [c])

/-- A name written. -/
def putName (name : Identifier) : Scan Unit := name.pieces.forM put

/-- **A node that leaves where it cannot be read on,** without harm to the one around it. -/
def closed (node : Scan Unit) : Scan Unit :=
  tryCatch node fun
    | .node => return ()
    | .fullPage => throw .fullPage

/-- The reader gets stuck. -/
def fail {α : Type} (fault : Fault) : Scan α := do
  put fault.message
  modify fun page => { page with place := .error fault }
  throw .node

/-- The next token. -/
def token {α : Type} (t : Token α) : Scan α := do
  match (← get).place with
  | .error _ =>
    put "?"
    throw .node
  | .ok offset =>
    match (t.run (← read).symbol).run offset with
    | .error fault => fail fault
    | .ok (value, offset) =>
      modify fun page => { page with place := .ok offset }
      return value

/-- Whether the reader is stuck. -/
def isStuck : Scan Bool := do
  match (← get).place with
  | .ok _ => return false
  | .error _ => return true

/-- Whether the next character is a given one, which is then passed; never if the reader is stuck. -/
def eat (c : Char) : Scan Bool := do
  if ← isStuck then return false else token (Token.eat c)

/-- A node read without writing. -/
def silently (node : Scan Unit) : Scan Unit :=
  withReader (fun source => { source with silent := true }) node

/-- Nodes up to an `E`, or until the reader is stuck; at most `fuel` of them. The answer is how many
there are, with those before. -/
def listFrom (node : Scan Unit) (separator : String) : Nat → Nat → Scan Nat
  | 0, count => return count
  | fuel + 1, count => do
    if (← isStuck) || (← eat 'E') then return count
    if count ≠ 0 then put separator
    closed node
    listFrom node separator fuel (count + 1)

/-- **Nodes up to an `E`** with separators between them, and how many there are. -/
def list (node : Scan Unit) (separator : String := ", ") : Scan Nat := do
  listFrom node separator ((← read).symbol.size + 1) 0

/-- A lifetime by its distance from the innermost: a letter, counted from the outermost. -/
def lifetime (index : Nat) : Scan Unit := closed do
  if (← read).silent then return
  put "'"
  let bound := (← get).lifetimes
  if index = 0 then put "_"
  else if bound < index then fail .invalid
  else
    let depth := bound - index
    if depth < 26 then put (String.ofList [Char.ofNat ('a'.toNat + depth)])
    else
      put "_"
      put (toString depth)

/-- The lifetimes that a `for` binds, each in turn. -/
def bind (isFirst : Bool) : Nat → Scan Unit
  | 0 => return ()
  | n + 1 => do
    if !isFirst then put ", "
    modify fun page => { page with lifetimes := page.lifetimes + 1 }
    lifetime 1
    bind false n

/-- A node under the lifetimes it binds. -/
def binder (node : Scan Unit) : Scan Unit := closed do
  let bound ← token (Token.optNumber 'G')
  if (← read).silent then closed node
  else
    if bound ≠ 0 then
      put "for<"
      bind true bound
      put "> "
    closed node
    modify fun page => { page with lifetimes := page.lifetimes - bound }

end Scan

end ArcCoverage.Symbol.TaggedPath
