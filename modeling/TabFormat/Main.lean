import Std.Time.DateTime
import TabFormat.CommandLine.Run

/-!
# The program

Runs the command line with the files, the standard input and the clock of the system.
-/

namespace TabFormat

open CommandLine

/-- What a failure of the system says about a file. -/
def ReadFault.ofError : IO.Error → ReadFault
  | .noFileOrDirectory .. => .missing
  | .permissionDenied .. => .denied
  | .inappropriateType _ 21 _ => .directory
  | .inappropriateType .. => .notDirectory
  | e => .other e.toString.toList

/-- The contents that an action reads. -/
def Contents.read (action : IO ByteArray) : IO Contents := do
  match ← action.toBaseIO with
  | .ok bytes => return .ok bytes
  | .error e => return .error (.ofError e)

/-- Reads a stream to its end. -/
partial def readToEnd (stream : IO.FS.Stream) (bytes : ByteArray) : IO ByteArray := do
  let more ← stream.read 65536
  if more.isEmpty then return bytes else readToEnd stream (bytes ++ more)

/-- The files, the standard input and the clock of the system. -/
def systemSurroundings : Surroundings IO where
  fileAt path := Contents.read (IO.FS.readBinFile ⟨String.ofList path⟩)
  input := do
    let stream ← IO.getStdin
    if ← stream.isTty then return none else return some (← Contents.read (readToEnd stream .empty))
  seconds := do return (← Std.Time.Timestamp.now).toSecondsSinceUnixEpoch.val

end TabFormat

/-- Runs the program. -/
def main (arguments : List String) : IO UInt32 := do
  let outcome ← TabFormat.CommandLine.run TabFormat.systemSurroundings
    (arguments.map String.toList)
  IO.print (String.ofList outcome.output)
  IO.eprint (String.ofList outcome.errors)
  return outcome.code
