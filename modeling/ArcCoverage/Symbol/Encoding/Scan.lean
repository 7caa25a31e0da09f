/-
# Reading Itanium symbols

A `Scan` reads from the front of a symbol. It may find something else than it looks for, and then
another reading is tried; or it may be nested too deep, and then the symbol is not read at all.

* `attempt` goes back to where it was if nothing was found. Parts that were met on the way stay: they
  are counted in the order in which they were met.
* `firstOf` takes the first of some readings that finds something, and `many` reads as long as there
  is something.
* `enter` is the way one level down.
-/
import ArcCoverage.Symbol.Encoding.Tree

namespace ArcCoverage.Symbol.Encoding

/-- Why nothing was read. -/
inductive Obstacle where
  | mismatch
  | tooDeep
  deriving DecidableEq, Repr

/-- The rest of a symbol, and the parts met so far. -/
structure Cursor where
  rest : List Char
  parts : Array Part := #[]
  /-- Whether the type that a conversion converts to is being read. -/
  inConversion : Bool := false

/-- Reads from the front of a symbol. -/
abbrev Scan := ExceptT Obstacle (StateM Cursor)

namespace Scan

/-- Something else was found. -/
def mismatch {α : Type} : Scan α := throw .mismatch

/-- What was read; `none` if something else was found. -/
def attempt {α : Type} (scan : Scan α) : Scan (Option α) := do
  let start ← get
  tryCatch (some <$> scan) fun
    | .mismatch => do
      modify fun cursor =>
        { cursor with rest := start.rest, inConversion := start.inConversion }
      return none
    | .tooDeep => throw .tooDeep

/-- The first reading that finds something. -/
def firstOf {α : Type} : List (Scan α) → Scan α
  | [] => mismatch
  | [scan] => scan
  | scan :: scans => do
    match ← attempt scan with
    | some value => return value
    | none => firstOf scans

/-- As many as there are, at most `fuel`. -/
def manyFrom {α : Type} (scan : Scan α) : Nat → Scan (List α)
  | 0 => return []
  | fuel + 1 => do
    match ← attempt scan with
    | some value => return value :: (← manyFrom scan fuel)
    | none => return []

/-- **As many as there are.** Each takes a character, so there are no more than characters. -/
def many {α : Type} (scan : Scan α) : Scan (List α) := do
  manyFrom scan ((← get).rest.length + 1)

/-- As many as there are, but at least one. -/
def manyOne {α : Type} (scan : Scan α) : Scan (List α) := do
  let first ← scan
  return first :: (← many scan)

/-- A level down. -/
def enter {α : Type} (room : Nat) (scan : Nat → Scan α) : Scan α :=
  match room with
  | 0 => throw .tooDeep
  | room + 1 => scan room

/-- The next character, which stays. -/
def peek : Scan (Option Char) := do return (← get).rest.head?

/-- Some of the next characters, which stay. -/
def ahead (n : Nat) : Scan String := do return String.ofList ((← get).rest.take n)

/-- Some characters passed. -/
def skip (n : Nat) : Scan Unit := modify fun cursor => { cursor with rest := cursor.rest.drop n }

/-- Whether a text comes next, which is then passed. -/
def eat (text : String) : Scan Bool := do
  if text.toList.isPrefixOf (← get).rest then
    skip text.length
    return true
  return false

/-- Whether one of some texts comes next, which is then passed. -/
def eatAny : List String → Scan Bool
  | [] => return false
  | text :: texts => do
    if ← eat text then return true else eatAny texts

/-- A text that must come next. -/
def expect (text : String) : Scan Unit := do
  if !(← eat text) then mismatch

/-- The characters up to the first that fails a test. -/
def span (test : Char → Bool) : Scan (List Char) := do
  let cs := (← get).rest.takeWhile test
  skip cs.length
  return cs

/-- A part that may be referred to later. -/
def remember (part : Part) : Scan Part := do
  modify fun cursor => { cursor with parts := cursor.parts.push part }
  return part

end Scan

end ArcCoverage.Symbol.Encoding
