import Tomasulo.CommandLine.Response

/-!
# The program

Reads the files that the command line names, writes the response and ends with its code.
-/

namespace Tomasulo.CommandLine

/-- Why a file cannot be read, in the words of the operating system. -/
def reasonOf : IO.Error → String
  | .noFileOrDirectory .. => "No such file or directory (os error 2)"
  | .permissionDenied .. => "Permission denied (os error 13)"
  | .inappropriateType .. => "Is a directory (os error 21)"
  | error => toString error

/-- Reads a file. -/
def readPath (path : String) : IO (Except String String) := do
  try
    return .ok (← IO.FS.readFile path)
  catch error =>
    return .error (reasonOf error)

/-- Reads the files that a command line may need. -/
def readPaths (words : List String) : IO Files := do
  let paths := match read words with
    | .error _ => []
    | .ok invocation => invocation.paths
  let contents ← paths.mapM fun path => return (path, ← readPath path)
  return fun path => (contents.lookup path).getD (.error (reasonOf (.noFileOrDirectory path 2 "")))

end Tomasulo.CommandLine

/-- Runs the program. -/
def main (words : List String) : IO UInt32 := do
  let files ← Tomasulo.CommandLine.readPaths words
  let response := Tomasulo.CommandLine.answer files words
  (← IO.getStdout).putStr response.stdout
  (← IO.getStderr).putStr response.stderr
  return UInt32.ofNat response.code
