/-
# Disks

A disk holds files and directories at places, which are lists of names from the root. A path leads to
a place name by name:

| name | leads |
| --- | --- |
| empty, `.` | nowhere else |
| `..` | to the directory above; the root is above itself |
| any other | to the entry of that name |

Only a directory can be gone through. A path that ends in a slash wants a directory. Names have at
most 255 bytes and paths at most 4095.

`Disk.lookup_put` says what a change to one place leaves at all places.
-/
import ArcCoverage.Path.Basic
import ArcCoverage.Storage.SystemError
import ArcCoverage.Text.Utf8

namespace ArcCoverage

/-- A place on a disk: the names that lead to it from the root. -/
abbrev Place := List (List Char)

/-- What is at a place. -/
inductive Entry where
  | file (content : List UInt8)
  | directory
  deriving DecidableEq, Repr

/-- Files and directories, and the directory in which relative paths begin. -/
structure Disk where
  /-- The newest entry of a place counts. -/
  entries : List (Place × Entry) := []
  current : Place := []
  deriving DecidableEq, Repr

namespace Disk

/-- The longest name, in bytes. -/
def nameLimit : Nat := 255

/-- The longest path, in bytes. -/
def pathLimit : Nat := 4095

/-- **What is at a place.** The root and the current directory are always there. -/
def lookup (d : Disk) (place : Place) : Option Entry :=
  if place = [] then some .directory else d.entries.lookup place

/-- The disk with something at a place. -/
def put (d : Disk) (place : Place) (entry : Entry) : Disk :=
  { d with entries := (place, entry) :: d.entries.filter fun e => e.1 != place }

/-- **A change to one place** leaves all others as they were. -/
theorem lookup_put {d : Disk} {place : Place} (h : place ≠ []) (entry : Entry) (other : Place) :
    (d.put place entry).lookup other = if other = place then some entry else d.lookup other := by
  have unchanged (es : List (Place × Entry)) (hne : other ≠ place) :
      (es.filter fun e => e.1 != place).lookup other = es.lookup other := by
    induction es with
    | nil => rfl
    | cons e es ih =>
      obtain ⟨q, en⟩ := e
      by_cases hq : q = place
      · subst hq
        simp [List.lookup_cons, beq_eq_false_iff_ne.2 hne, ih]
      · by_cases ho : other = q <;> simp [List.lookup_cons, hq, ih]
  unfold lookup put
  by_cases ho : other = place
  · subst ho
    simp [h]
  · rw [List.lookup_cons, unchanged _ ho]
    simp [ho, beq_eq_false_iff_ne.2 ho]

/-- Where a path leads. -/
inductive Target where
  | found (place : Place) (entry : Entry)
  /-- There is nothing of that name in a directory that exists. -/
  | vacant (place : Place)
  deriving DecidableEq, Repr

/-- A place reached from another by names. -/
def walk (d : Disk) : Place → List (List Char) → Except SystemError Target
  | place, names =>
    match d.lookup place with
    | none => .error .noEntry
    | some here =>
      match names with
      | [] => .ok (.found place here)
      | name :: names =>
        if here != .directory then .error .notDirectory
        else if name = ['.'] then walk d place names
        else if name = ['.', '.'] then walk d place.dropLast names
        else if nameLimit < (Utf8.encode (String.ofList name)).length then .error .nameTooLong
        else
          let next := place ++ [name]
          if (d.lookup next).isNone then
            if names.isEmpty then .ok (.vacant next) else .error .noEntry
          else walk d next names

/-- Whether a path wants a directory. -/
def wantsDirectory (path : List Char) : Bool := path.getLast? == some '/'

/-- **Where a path leads,** if it is one. -/
def resolve (d : Disk) (path : List Char) : Except SystemError Target :=
  if path.contains '\x00' then .error .zeroInPath
  else if path.isEmpty then .error .noEntry
  else if pathLimit < (Utf8.encode (String.ofList path)).length then .error .nameTooLong
  else
    let start := if Path.isAbsolute path then [] else d.current
    d.walk start ((Text.split '/' path).filter (· != []))

/-- **The content of a file.** -/
def read (d : Disk) (path : List Char) : Except SystemError (List UInt8) :=
  match d.resolve path with
  | .error e => .error e
  | .ok (.vacant _) => .error .noEntry
  | .ok (.found _ .directory) => .error .isDirectory
  | .ok (.found _ (.file content)) =>
    if wantsDirectory path then .error .notDirectory else .ok content

/-- **The disk with a file created or replaced.** -/
def write (d : Disk) (path : List Char) (content : List UInt8) : Except SystemError Disk :=
  match d.resolve path with
  | .error e => .error e
  | .ok (.vacant place) =>
    if wantsDirectory path then .error .isDirectory else .ok (d.put place (.file content))
  | .ok (.found _ .directory) => .error .isDirectory
  | .ok (.found place (.file _)) =>
    if wantsDirectory path then .error .notDirectory else .ok (d.put place (.file content))

/-- Whether a path leads to a directory. -/
def isDirectory (d : Disk) (path : List Char) : Bool :=
  match d.resolve path with
  | .ok (.found _ .directory) => true
  | _ => false

/-- The disk with an entry, and the directories above it, below the current directory. -/
def provide (d : Disk) (path : List Char) (entry : Entry) : Disk :=
  let names := (Text.split '/' path).filter (!Path.isBlank ·)
  let above := (List.range names.length).map fun n => d.current ++ names.take n
  let d := above.foldl (fun d place => if (d.lookup place).isSome then d else d.put place .directory) d
  d.put (d.current ++ names) entry

/-- A disk whose only entries are the directories on the way to the current one. -/
def ofCurrent (current : Place) : Disk where
  current
  entries := (List.range current.length).map fun n => (current.take (n + 1), .directory)

/-- The files below the current directory, by their paths from there. -/
def files (d : Disk) : List (List Char × List UInt8) :=
  d.entries.filterMap fun (place, entry) =>
    match entry with
    | .directory => none
    | .file content =>
      if d.current.isPrefixOf place then
        some (Text.join '/' (place.drop d.current.length), content)
      else none

end Disk

end ArcCoverage
