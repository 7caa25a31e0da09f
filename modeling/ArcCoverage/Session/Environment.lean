/-
# What a run may do

A run reads and writes files and standard streams. `Environment m` lists these effects for a monad,
so that everything above it can run on a real system and on a `Session`, which is a plain value.

Every effect that can fail says so in its result; diagnostics and log entries are written as well as
can be.
-/
import ArcCoverage.Session.Log
import ArcCoverage.Storage.SystemError

namespace ArcCoverage

/-- The effects of a run. -/
class Environment (m : Type → Type) where
  /-- The content of a file. -/
  load : String → m (Except SystemError (List UInt8))
  /-- Whether a path leads to a directory. -/
  isDirectory : String → m Bool
  /-- Creates or replaces a file. -/
  save : String → String → m (Except SystemError Unit)
  /-- Everything that is left on standard input. -/
  takeInput : m (Except SystemError (List UInt8))
  /-- Writes to standard output. -/
  emit : String → m (Except SystemError Unit)
  /-- Writes a diagnostic to standard error. -/
  diagnose : String → m Unit
  /-- Makes a log entry. -/
  note : LogEntry → m Unit

namespace Environment

variable {m : Type → Type}

/-- A log entry at the level `debug`. -/
def debug [Environment m] (topic : LogTopic) (text : String) : m Unit := note ⟨.debug, topic, text⟩

/-- A log entry at the level `info`. -/
def info [Environment m] (topic : LogTopic) (text : String) : m Unit := note ⟨.info, topic, text⟩

/-- A log entry at the level `trace`. -/
def trace [Environment m] (topic : LogTopic) (text : String) : m Unit := note ⟨.trace, topic, text⟩

end Environment

end ArcCoverage
