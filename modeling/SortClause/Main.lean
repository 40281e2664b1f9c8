import SortClause.Command.Run
/-!
The command itself: it looks at the one settings file that its arguments lead to, reads the standard
input if it has no directives, and prints what the run gives.
-/
namespace SortClause.Command

open Files

/-- What an attempt to read a file ended in. -/
def lookupOfError (e : IO.Error) : Lookup :=
  match e with
  | .noFileOrDirectory _ _ _ => .absent .notFound
  | .inappropriateType _ 21 _ => .present (.error .isDirectory)
  | .inappropriateType _ _ _ => .absent .notDirectory
  | .invalidArgument _ 36 _ => .absent .nameTooLong
  | e => .present (.error (.other (toString e).toList))

/-- Looks at a path. -/
def examine (p : Path) : IO Lookup := do
  try
    let bytes ← IO.FS.readBinFile (String.ofList p)
    return .present (.ok bytes.toList)
  catch e => return lookupOfError e

/-- Reads a stream to its end. -/
partial def readAll (stream : IO.FS.Stream) (bytes : ByteArray) : IO ByteArray := do
  let chunk ← stream.read 65536
  if chunk.isEmpty then return bytes else readAll stream (bytes ++ chunk)

/-- The files and the input that a run with these arguments looks at. -/
def surroundings (args : List Text) : IO (Disk × List UInt8) := do
  match Arguments.read args with
  | .error _ => return (fun _ => .absent .notFound, [])
  | .ok a =>
    let found ← examine (settingsPath a)
    let input ← if a.directives.isEmpty then readAll (← IO.getStdin) .empty else pure .empty
    return (fun _ => found, input.toList)

end SortClause.Command

open SortClause.Command in
/-- Runs the command. -/
def main (args : List String) : IO UInt32 := do
  let args := args.map String.toList
  let (disk, input) ← surroundings args
  let outcome := run args disk input
  (← IO.getStdout).putStr (String.ofList outcome.stdout)
  (← IO.getStderr).putStr (String.ofList (outcome.stderr.getD "error: invalid arguments\n".toList))
  return outcome.code.toUInt32
