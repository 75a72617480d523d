/-
  PointOfSale/Main.lean
  =====================
  **The program on the real file system.**  Answers go to the standard output,
  messages to the standard error.
-/
import PointOfSale.CommandLine.Program

namespace PointOfSale

/-- The fault that an error of the file system stands for. -/
def FileFault.ofError : IO.Error → FileFault
  | .noFileOrDirectory .. => .missing
  | .noSuchThing .. => .missing
  | .inappropriateType .. => .isDirectory
  | e => .other (toString e)

instance : Files IO where
  read path := do
    try return .ok (← IO.FS.readFile path)
    catch e => return .error (.ofError e)
  write path text := do
    try IO.FS.writeFile path text; return .ok ()
    catch e => return .error (.ofError e)

/-- The variables of the environment, as the system lists them. -/
def readEnvironment : IO Environment := do
  match ← (Files.read "/proc/self/environ" : IO _) with
  | .error _ => return []
  | .ok text =>
    return (Text.pieces '\x00' text.toList).filterMap fun entry =>
      let (name, value) := entry.span (· ≠ '=')
      value.tail?.map fun value => (String.ofList name, String.ofList value)

end PointOfSale

open PointOfSale in
/-- Run the program. -/
def main (args : List String) : IO UInt32 := do
  let outcome ← CommandLine.run args (← readEnvironment)
  IO.print outcome.output
  match outcome with
  | .printed _ => pure ()
  | .failed fault => IO.eprintln ("Error: " ++ fault.message)
  | .misused => IO.eprintln "error: bad usage"
  return outcome.exitCode
