import Stubwright.CommandLine.Run
import Stubwright.Host.Disk

/-!
# The program

Reads the arguments and the environment, runs the invocation on the disk, prints what it shows and
ends with its exit code.
-/

open Stubwright CommandLine

/-- What is printed when the arguments make no invocation. -/
def usageLine : String := "usage: ironimpl [OPTIONS] --types FILE TYPE PATH"

/-- What is printed when the version is asked for. -/
def versionLine : String := "ironimpl 0.1.0"

/-- What is printed when the arguments make no invocation: the version if it was asked for, the usage
otherwise. -/
def lineOf : ArgumentError → String
  | .versionWanted => versionLine
  | _ => usageLine

/-- The variables of the environment that an invocation goes by. -/
def readVariables : IO (List (String × String)) := do
  let names := [typesVariable, javacVariable, classPathVariable, javaHomeVariable]
  let values ← names.mapM fun name => return (← IO.getEnv name).map (name, ·)
  return values.filterMap id

/-- One invocation. -/
def main (args : List String) : IO UInt32 := do
  let given ← readVariables
  let environment (name : String) : Option String := given.lookup name
  match Options.read environment args with
  | .error e =>
    if e.exitCode = 0 then IO.println (lineOf e) else IO.eprintln (lineOf e)
    return e.exitCode.toUInt32
  | .ok options =>
    let shown := display (← run Host.Disk.host environment options)
    IO.print shown.stdout
    IO.eprint shown.stderr
    return shown.exitCode.toUInt32
