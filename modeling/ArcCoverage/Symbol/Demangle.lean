/-
# Shown names of functions

A symbol is shown as the source writes it, if it can be read in one of three schemes, which are tried
in turn: a path and a hash, a tagged path, and the encoding of a declaration. The first two may be
followed by a dot and words that a compiler added. Any other name is shown as it is.
-/
import ArcCoverage.Report.Options
import ArcCoverage.Symbol.Encoding.Layout
import ArcCoverage.Symbol.HashedPath
import ArcCoverage.Symbol.TaggedPath

namespace ArcCoverage.Symbol

/-- Whether characters are those behind `.llvm.` at the end of a symbol. -/
def isModuleId (cs : List Char) : Bool :=
  cs.all fun c => isDigit c || ('A' ≤ c && c ≤ 'F') || c == '@'

/-- A symbol without the mark of the module that it was taken from. -/
def dropModuleId (cs : List Char) : List Char :=
  match cs with
  | [] => []
  | c :: rest =>
    if ".llvm.".toList.isPrefixOf cs then if isModuleId (cs.drop 6) then [] else cs
    else c :: dropModuleId rest

/-- Whether words that a compiler added may stand behind a path. -/
def isSuffix (cs : List Char) : Bool :=
  cs.isEmpty || (cs.head? == some '.' && cs.all fun c => 0x21 ≤ c.toNat && c.toNat ≤ 0x7e)

/-- A path that was read, if only words that a compiler added stand behind it. -/
def withSuffix (read : String × List Char) : Option String :=
  if isSuffix read.2 then some (read.1 ++ String.ofList read.2) else none

/-- The path that a symbol spells. The tagged scheme is for those that are not in the other. -/
def path? (symbol : List Char) : Option String :=
  match HashedPath.read symbol with
  | some read => withSuffix read
  | none => (TaggedPath.read symbol).bind withSuffix

/-- **The name of a function as its source writes it.** -/
def demangle (name : String) : String :=
  ((path? (dropModuleId name.toList)).or (Encoding.read name.toList)).getD name

/-- The name under which a report shows a function. -/
def shown (options : Options) (name : String) : String :=
  if options.demangledNames then demangle name else name

end ArcCoverage.Symbol
