/-
# Symbols that spell a tagged path

The newer of two schemes for paths, which starts with `_R`. A symbol may end in the path of the
library that made it, which is not shown.

A symbol is of the scheme if its nodes can be read one after the other. References back into it are
followed only when it is shown; then a node that cannot be read leaves a message, and a path that is
too long is cut.
-/
import ArcCoverage.Symbol.TaggedPath.Node

namespace ArcCoverage.Symbol.TaggedPath

/-- The deepest nesting that is followed. -/
def nesting : Nat := 500

/-- What stands behind the start of a symbol, if it has one and a path may follow. -/
def body (symbol : List Char) : Option (List Char) :=
  let rest :=
    match symbol with
    | '_' :: 'R' :: rest => some rest
    | 'R' :: rest => some rest
    | '_' :: '_' :: 'R' :: rest => some rest
    | _ => none
  rest.filter fun cs => cs.head?.any isCapital

/-- Where the reader is behind a path that is not shown; none if there is no path. -/
def skipPath (symbol : Array Char) (offset : Nat) : Option Nat :=
  let page := (((Scan.node nesting (.path false)).run ⟨symbol, true⟩).run.run
    { place := .ok offset }).2
  match page.place with
  | .ok offset => some offset
  | .error _ => none

/-- Where a symbol ends, with the path of the library that made it. -/
def endOf (symbol : Array Char) : Option Nat := do
  let offset ← skipPath symbol 0
  if symbol[offset]?.any isCapital then skipPath symbol offset else return offset

/-- A path as it is shown. -/
def shown (symbol : Array Char) : String :=
  match ((Scan.node nesting (.path true)).run ⟨symbol, false⟩).run.run {} with
  | (.error .fullPage, page) => page.text ++ "\x7bsize limit reached\x7d"
  | (_, page) => page.text

/-- **The path of a symbol,** and what stands behind it. -/
def read (symbol : List Char) : Option (String × List Char) := do
  let cs ← body symbol
  if cs.any fun c => 0x80 ≤ c.toNat then none
  let ending ← endOf cs.toArray
  return (shown cs.toArray, cs.drop ending)

end ArcCoverage.Symbol.TaggedPath
