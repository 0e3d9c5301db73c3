import Chunking.CommandLine.Run

/-!
# The program

Hands the arguments and, where they call for it, the standard input to `CommandLine.run`, and
writes what it returns.
-/

namespace Chunking.CommandLine

/-- All bytes of a stream up to its end. -/
partial def readToEnd (stream : IO.FS.Stream) (bytes : ByteArray) : IO ByteArray := do
  let chunk ← stream.read 65536
  if chunk.isEmpty then return bytes else readToEnd stream (bytes ++ chunk)

end Chunking.CommandLine

open Chunking

def main (arguments : List String) : IO UInt32 := do
  let stdin ←
    if CommandLine.readsInput arguments then
      CommandLine.readToEnd (← IO.getStdin) ByteArray.empty
    else
      pure ByteArray.empty
  let outcome := CommandLine.run arguments stdin
  IO.print outcome.stdout
  IO.eprint outcome.stderr
  return outcome.code
