import Fabric.CommandLine.Run

/-!
# The program

Reads the arguments and the files they lead to, and prints what the command leaves behind.
-/

namespace Fabric.Main

open Fabric.CommandLine

/-- The number that the system has for an error, which may be given with a minus sign. -/
def errorNumber (code : UInt32) : Nat := code.toInt32.toInt.natAbs

/-- What the system says about a file that cannot be read. -/
def fileError (e : IO.Error) : FileError :=
  match e with
  | .noFileOrDirectory .. => .notFound
  | .permissionDenied _ code details | .inappropriateType _ code details
  | .invalidArgument _ code details | .otherError code details =>
    (FileError.ofCode? (errorNumber code)).getD ⟨details, errorNumber code⟩
  | e => ⟨toString e, 0⟩

/-- Reads a file. -/
def readFile (path : String) : IO (Except FileError String) := do
  try
    return .ok (← IO.FS.readFile path)
  catch e =>
    return .error (fileError e)

/-- Whether there is a file at a path. -/
def isFile (path : String) : IO Bool := do
  match ← readFile path with
  | .ok _ => return true
  | .error _ => return false

end Fabric.Main

/-- The command line of the program. -/
def main (args : List String) : IO UInt32 := do
  let stderr ← IO.getStderr
  let output ← Fabric.CommandLine.execute args (← stderr.isTty)
    Fabric.Main.isFile Fabric.Main.readFile
  (← IO.getStdout).putStr output.stdout
  stderr.putStr output.stderr
  return output.status.toUInt32
