/-
# Paths

A path is a text with slashes. It starts at the root or at the current directory and runs through
components; empty pieces, and `.` anywhere but at the front, do not count.

| path | components | file name | parent |
| --- | --- | --- | --- |
| `a/b.c` | `a`, `b.c` | `b.c` | `a` |
| `/a//b/.` | root, `a`, `b` | `b` | `/a` |
| `./a` | here, `a` | `a` | `.` |
| `a/..` | `a`, up | none | `a` |
| `/` | root | none | none |

The parent keeps the spelling of the path it is taken from. To join two paths is to put one slash
between them, unless the first is empty or ends in one; a second path that starts at the root stands
alone.
-/
import ArcCoverage.Text.Layout

namespace ArcCoverage.Path

/-- A step of a path. -/
inductive Component where
  | root
  /-- A leading `.`. -/
  | here
  /-- The component `..`. -/
  | up
  | name (s : List Char)
  deriving DecidableEq, Repr

/-- Whether a path starts at the root. -/
def isAbsolute (path : List Char) : Bool := path.head? == some '/'

/-- A path cut into its start, which is `/` or `.` or nothing, and the rest. -/
def cut : List Char → List Char × List Char
  | '/' :: rest => (['/'], rest)
  | ['.'] => (['.'], [])
  | '.' :: '/' :: rest => (['.'], '/' :: rest)
  | path => ([], path)

theorem append_cut (path : List Char) : (cut path).1 ++ (cut path).2 = path := by
  unfold cut
  split <;> rfl

/-- Whether a piece between slashes is no component. -/
def isBlank (piece : List Char) : Bool := piece == [] || piece == ['.']

/-- The component that a piece between slashes is. -/
def Component.ofPiece (piece : List Char) : Component :=
  if piece = ['.', '.'] then .up else .name piece

/-- The pieces of the part of a path behind its start, from the last on. -/
def piecesFromEnd (rest : List Char) : List (List Char) := (Text.split '/' rest).reverse

/-- The component at the start of a path. -/
def startComponents (start : List Char) : List Component :=
  if start = ['/'] then [.root] else if start = ['.'] then [.here] else []

/-- **The components of a path.** -/
def components (path : List Char) : List Component :=
  let (start, rest) := cut path
  startComponents start ++ ((Text.split '/' rest).filter (!isBlank ·)).map .ofPiece

/-- The pieces of a path from the last component on. -/
def tail (path : List Char) : List (List Char) := (piecesFromEnd (cut path).2).dropWhile isBlank

/-- **The last component,** if it is a name. -/
def fileName (path : List Char) : Option (List Char) :=
  match tail path with
  | piece :: _ => if piece = ['.', '.'] then none else some piece
  | [] => none

/-- **The path without its last component;** empty if there is none to leave out. -/
def parent (path : List Char) : List Char :=
  match tail path with
  | _ :: pieces => (cut path).1 ++ Text.join '/' (pieces.dropWhile isBlank).reverse
  | [] => []

/-- **One path behind another.** -/
def join (path behind : List Char) : List Char :=
  if isAbsolute behind then behind
  else if path = [] || path.getLast? = some '/' then path ++ behind
  else path ++ '/' :: behind

/-- A name in two at its last dot, which belongs to neither part. -/
def splitLastDot (name : List Char) : Option (List Char × List Char) :=
  match (Text.split '.' name).reverse with
  | last :: before :: earlier => some (Text.join '.' (before :: earlier).reverse, last)
  | _ => none

/-- The file name up to its last dot; empty if there is no file name. -/
def fileStem (path : List Char) : List Char :=
  match fileName path with
  | none => []
  | some name =>
    match splitLastDot name with
    | some (stem, _) => stem
    | none => name

/-- The file name, or the whole path if it has none. -/
def baseName (path : List Char) : List Char := (fileName path).getD path

end ArcCoverage.Path
