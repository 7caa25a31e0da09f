/-
# Names of the files beside a source

The compiler writes a notes file for every source, and the program a data file. Both are named for
their object file, whose place may be given:

| place | stem |
| --- | --- |
| beside the source `src/a.c` | `src/a` |
| in the directory `out` | `out/a` |
| that of the object file `out/x.o` | `out/x` |

The stem gets `.gcno` or `.gcda`, unless a name is given outright.
-/
import ArcCoverage.Format.ByteOrder
import ArcCoverage.Path.Basic
import ArcCoverage.Session.Environment

namespace ArcCoverage

/-- Where the object files are. -/
inductive ObjectPlace where
  | besideSource
  | directory (path : String)
  /-- An object file; the source's own name does not matter. -/
  | object (path : String)
  deriving DecidableEq, Repr

namespace ObjectPlace

/-- **What a given path means:** nothing if it is empty, a directory if there is one, and otherwise an
object file. -/
def classify {m : Type → Type} [Monad m] [Environment m] (path : String) : m ObjectPlace :=
  if path.isEmpty then return besideSource
  else do
    if ← Environment.isDirectory path then return directory path else return object path

/-- The path of a file without what follows its last dot. -/
def stemBeside (path : List Char) : List Char := Path.join (Path.parent path) (Path.fileStem path)

/-- **The stem of a source's artifacts.** -/
def stem (source : String) : ObjectPlace → String
  | besideSource => String.ofList (stemBeside source.toList)
  | directory path => String.ofList (Path.join path.toList (Path.fileStem source.toList))
  | object path => String.ofList (stemBeside path.toList)

end ObjectPlace

/-- The extension of a kind of file. -/
def FileKind.extension : FileKind → String
  | .notes => ".gcno"
  | .data => ".gcda"

/-- **The name of an artifact:** the given one if it is not empty, and else the stem's. -/
def artifactName (stem : String) (given : Option String) (kind : FileKind) : String :=
  match given with
  | some name => if name.isEmpty then stem ++ kind.extension else name
  | none => stem ++ kind.extension

end ArcCoverage
