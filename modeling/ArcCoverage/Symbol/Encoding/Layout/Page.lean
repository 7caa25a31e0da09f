/-
# Writing declarations

A declaration is written from the outside in: of `int (*p)[3]` the array comes first, then the pointer.
A page holds what was written and the *wrappings* that are still to be written: the marks of the types
around the one that is being written. Whoever reaches the place for them writes them; what is left over
is written by the type it belongs to. So every wrapping has a number of its own.
-/
import ArcCoverage.Symbol.Encoding.Tree

namespace ArcCoverage.Symbol.Encoding

/-- What is written around the name that is declared. -/
inductive Wrapping where
  /-- The parameters behind the name of a function, whose template arguments may be referred to. -/
  | parameters (args : Option (List Arg)) (types : List Part)
  /-- The parameters of a function type. -/
  | signature (types : List Part)
  /-- What stands behind the parameters of a function type. -/
  | behind (qualifiers : Qualifiers) (object : Option ObjectKind)
  | array (size : Option Expr)
  | vector (size : Expr)
  | member (scope : Part)
  | qualified (qualifiers : Qualifiers) (isArray : Bool)
  | pointer
  | lvalueRef
  | rvalueRef

/-- What is written, and what is still to be written. -/
structure Page where
  /-- The characters, the last one first. -/
  written : List Char := []
  /-- The wrappings, each with its number, the innermost first. -/
  wrappings : List (Nat × Wrapping) := []
  /-- The number of the next wrapping. -/
  next : Nat := 0
  /-- Whether the parameters of a closure are being written: a template parameter is `auto` there. -/
  inClosure : Bool := false
  /-- Whether a pack of template arguments was written. -/
  sawPack : Bool := false
  /-- The name that was written last. -/
  lastName : Option String := none

/-- What a piece may refer to: the class it is in, and template arguments, the closest first. -/
structure Scope where
  className : Option ClassName := none
  args : List (List Arg) := []

namespace Scope

/-- The template argument of a number: the closest arguments that have as many decide. -/
def arg? (scope : Scope) (index : Nat) : Option Arg := scope.args.findSome? (·[index]?)

/-- A scope within template arguments, if there are any. -/
def within (scope : Scope) (args : Option (List Arg)) : Scope :=
  match args with
  | some args => { scope with args := args :: scope.args }
  | none => scope

/-- A scope within a class, if it is one. -/
def inClass (scope : Scope) (className : Option ClassName) : Scope :=
  { scope with className := className.or scope.className }

end Scope

/-- Writes on a page. -/
abbrev Write := StateT Page Option

namespace Write

/-- A text written. -/
def put (text : String) : Write Unit :=
  modify fun page => { page with written := text.toList.reverse ++ page.written }

/-- The character that was written last. -/
def last : Write (Option Char) := do return (← get).written.head?

/-- A space written, unless there is one. -/
def space : Write Unit := do
  if (← last) ≠ some ' ' then put " "

/-- Words, each behind a space. -/
def words (texts : List String) : Write Unit :=
  texts.forM fun text => do
    space
    put text

/-- Pieces with commas between them. -/
def commas {α : Type} (write : α → Write Unit) : List α → Write Unit
  | [] => return ()
  | [piece] => write piece
  | piece :: pieces => do
    write piece
    put ", "
    commas write pieces

/-- The mark of names that a compiler gives to what is local to a file. -/
def isFileLocal (name : String) : Bool :=
  ["_GLOBAL__N", "_GLOBAL_.N", "_GLOBAL_$N"].any fun mark => name.startsWith mark

/-- A name written. -/
def source (name : String) : Write Unit := do
  if isFileLocal name then put "(anonymous namespace)"
  else
    modify fun page => { page with lastName := name }
    put name

/-- A wrapping that is to be written from now on; the answer is its number. -/
def push (wrapping : Wrapping) : Write Nat := do
  let page ← get
  set { page with wrappings := (page.next, wrapping) :: page.wrappings, next := page.next + 1 }
  return page.next

/-- The innermost wrapping, which then is no longer to be written. -/
def pop : Write (Option Wrapping) := do
  match (← get).wrappings with
  | [] => return none
  | (_, wrapping) :: rest =>
    modify fun page => { page with wrappings := rest }
    return wrapping

/-- Whether a wrapping is the innermost, which then is no longer to be written. -/
def popIf (number : Nat) : Write Bool := do
  if ((← get).wrappings.head?.map Prod.fst) = some number then
    let _ ← pop
    return true
  return false

/-- **A piece of its own,** in which no wrapping from outside has its place. -/
def apart (piece : Write Unit) : Write Unit := do
  let outside := (← get).wrappings
  modify fun page => { page with wrappings := [] }
  piece
  modify fun page => { page with wrappings := outside }

end Write

end ArcCoverage.Symbol.Encoding
