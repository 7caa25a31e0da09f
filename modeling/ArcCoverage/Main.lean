/-
# The program

The command line on the files and standard streams of the system. Nothing is decided here: effects
are carried out, and their failures told as system errors.
-/
import ArcCoverage.CommandLine.Run

namespace ArcCoverage.Program

/-- Effects on the system, at a log setting. -/
abbrev Action := ReaderT (Option LogLevel) IO

/-- A failure as a system error. -/
def systemError : IO.Error → SystemError
  | .alreadyExists _ n text => ⟨text, some n.toNat⟩
  | .otherError n text => ⟨text, some n.toNat⟩
  | .resourceBusy n text => ⟨text, some n.toNat⟩
  | .resourceVanished n text => ⟨text, some n.toNat⟩
  | .unsupportedOperation n text => ⟨text, some n.toNat⟩
  | .hardwareFault n text => ⟨text, some n.toNat⟩
  | .unsatisfiedConstraints n text => ⟨text, some n.toNat⟩
  | .illegalOperation n text => ⟨text, some n.toNat⟩
  | .protocolError n text => ⟨text, some n.toNat⟩
  | .timeExpired n text => ⟨text, some n.toNat⟩
  | .interrupted _ n text => ⟨text, some n.toNat⟩
  | .noFileOrDirectory _ n text => ⟨text, some n.toNat⟩
  | .invalidArgument _ n text => ⟨text, some n.toNat⟩
  | .permissionDenied _ n text => ⟨text, some n.toNat⟩
  | .resourceExhausted _ n text => ⟨text, some n.toNat⟩
  | .inappropriateType _ n text => ⟨text, some n.toNat⟩
  | .noSuchThing _ n text => ⟨text, some n.toNat⟩
  | .unexpectedEof => ⟨"unexpected end of file", none⟩
  | .userError text => ⟨text, none⟩

/-- An action with its failure as a value. -/
def attempt {α : Type} (action : IO α) : Action (Except SystemError α) := do
  try
    return .ok (← action)
  catch e =>
    return .error (systemError e)

/-- An action on a path, which must not hold a zero character. -/
def onPath {α : Type} (path : String) (action : IO α) : Action (Except SystemError α) :=
  if path.toList.contains '\x00' then return .error .zeroInPath else attempt action

/-- Everything that a stream still gives. -/
partial def readAll (stream : IO.FS.Stream) (soFar : ByteArray) : IO ByteArray := do
  let chunk ← stream.read 65536
  if chunk.isEmpty then return soFar else readAll stream (soFar ++ chunk)

/-- Whether a path leads to a directory. -/
def isDirectory (path : String) : IO Bool := do
  try
    let place ← IO.FS.realPath path
    place.isDir
  catch _ =>
    return false

/-- A text written to standard error, as well as can be. -/
def writeError (text : String) : Action Unit := do
  let _ ← attempt do (← IO.getStderr).putStr text

instance : Environment Action where
  load path := onPath path do return (← IO.FS.readBinFile path).toList
  isDirectory path := isDirectory path
  save path text := onPath path (IO.FS.writeBinFile path text.toUTF8)
  takeInput := attempt do return (← readAll (← IO.getStdin) .empty).toList
  emit text := attempt do
    let stream ← IO.getStdout
    stream.putStr text
    stream.flush
  diagnose := writeError
  note entry := do
    match ← read with
    | none => return ()
    | some setting => writeError (entry.shown setting)

end ArcCoverage.Program

open ArcCoverage in
/-- **The program.** Only help, the version and usage errors end it before its sources are done. -/
def main (arguments : List String) : IO UInt32 := do
  match CommandLine.parse arguments with
  | .error stop =>
    (CommandLine.announceStop stop : Program.Action Unit).run none
    return UInt32.ofNat stop.exitCode
  | .ok invocation =>
    (CommandLine.process invocation : Program.Action Unit).run invocation.logLevel
    return 0
