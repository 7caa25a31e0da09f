/-
# Loading artifacts

An artifact is a file, or all of standard input if its name is `-`.
-/
import ArcCoverage.Session.Environment

namespace ArcCoverage.Artifact

/-- The name of standard input; also what a report shows for a data file that does not exist. -/
def inputName : String := "-"

/-- **The bytes of an artifact.** -/
def load {m : Type → Type} [Monad m] [Environment m] (name : String) :
    m (Except SystemError (List UInt8)) := do
  match ← if name = inputName then Environment.takeInput else Environment.load name with
  | .error e => return .error e
  | .ok bytes =>
    Environment.debug .loading s!"Loaded {bytes.length} bytes from '{name}'"
    return .ok bytes

end ArcCoverage.Artifact
