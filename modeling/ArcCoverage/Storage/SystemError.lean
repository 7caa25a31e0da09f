/-
# System errors

What the system says when it cannot do something with a file or a stream. Most errors have a number;
`describe` shows it, `text` alone does not.

| error | number |
| --- | ---: |
| `noEntry` | 2 |
| `notDirectory` | 20 |
| `isDirectory` | 21 |
| `nameTooLong` | 36 |
| `zeroInPath` | none |
-/

namespace ArcCoverage

/-- A system error: its text, and its number if it has one. -/
structure SystemError where
  text : String
  number : Option Nat := none
  deriving DecidableEq, Repr

namespace SystemError

/-- There is nothing at the path. -/
def noEntry : SystemError := ⟨"No such file or directory", some 2⟩

/-- The path goes through a file, or wants a file to be a directory. -/
def notDirectory : SystemError := ⟨"Not a directory", some 20⟩

/-- A directory where a file is wanted. -/
def isDirectory : SystemError := ⟨"Is a directory", some 21⟩

/-- The path, or one of its names, is too long. -/
def nameTooLong : SystemError := ⟨"File name too long", some 36⟩

/-- No path holds a zero character. -/
def zeroInPath : SystemError := ⟨"file name contained an unexpected NUL byte", none⟩

/-- Whether the error says that a file does not exist. -/
def isNotFound (e : SystemError) : Bool := e.number == some 2

/-- The error with its number. -/
def describe (e : SystemError) : String :=
  match e.number with
  | none => e.text
  | some n => s!"{e.text} (os error {n})"

end SystemError

end ArcCoverage
