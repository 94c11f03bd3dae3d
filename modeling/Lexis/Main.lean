import Lexis.Program

/-!
# The command line program

Fetches what `Program.run` asks for, prints what it answers and ends with its exit code.
-/

namespace Lexis

/-- All bytes that are left in a stream, behind those in `bytes`. -/
partial def readToEnd (stream : IO.FS.Stream) (bytes : ByteArray) : IO ByteArray := do
  let chunk ← stream.read 65536
  if chunk.isEmpty then return bytes else readToEnd stream (bytes ++ chunk)

/-- What the operating system says about an error, and its number. -/
def systemMessage : IO.Error → String
  | .alreadyExists _ code text | .otherError code text | .resourceBusy code text
  | .resourceVanished code text | .unsupportedOperation code text | .hardwareFault code text
  | .unsatisfiedConstraints code text | .illegalOperation code text | .protocolError code text
  | .timeExpired code text | .interrupted _ code text | .noFileOrDirectory _ code text
  | .invalidArgument _ code text | .permissionDenied _ code text | .resourceExhausted _ code text
  | .inappropriateType _ code text | .noSuchThing _ code text =>
    text ++ " (os error " ++ toString code ++ ")"
  | e => toString e

/-- What stands at a path: nothing if the path leads nowhere, and a directory if what it leads to is
not of a kind to be read. -/
def entryAt (path : String) : IO Entry := do
  try discard (IO.FS.realPath path)
  catch _ => return .missing
  let handle ← IO.FS.Handle.mk path .read
  try
    return .file (← handle.readBinToEnd)
  catch
    | .inappropriateType .. => return .directory
    | e => throw e

/-- Runs the program in the file system. A source that is there but refused by the operating system
ends the run like any other that cannot be read. -/
def runInFileSystem (args : List String) : IO Outcome := do
  match Program.origin? args with
  | none => return Program.run args .empty fun _ => .missing
  | some origin =>
    try
      match origin with
      | .standardInput => do
        let stdin ← readToEnd (← IO.getStdin) .empty
        return Program.run args stdin fun _ => .missing
      | .file path => do
        let entry ← entryAt path
        return Program.run args .empty fun _ => entry
    catch e => return .failure (ReadError.refused origin (systemMessage e)).message

end Lexis

def main (args : List String) : IO UInt32 := do
  let outcome ← Lexis.runInFileSystem args
  IO.print outcome.stdout
  IO.eprint outcome.stderr
  return outcome.exitCode
