import Workforce.CommandLine.Demo
import Workforce.CommandLine.Simulation

/-!
# Programs

The simulation and, with `demo` as the first argument, the demonstration. Settings come from the
environment and from the file `.env` in the working directory.
-/

namespace Workforce.CommandLine

/-- The value of an environment variable, by a name in capital or in small letters. -/
def readVariable (name : String) : IO (List (String × String)) := do
  let small := name.toLower
  let capital ← IO.getEnv name
  let value ← match capital with
    | some s => pure (some s)
    | none => IO.getEnv small
  pure (value.toList.map fun s => (name, s))

/-- The environment of the process. -/
def readEnvironment : IO Environment := do
  let bindings ← Settings.default.toList.mapM fun (name, _) => readVariable name
  let file ← try IO.FS.readFile ".env" catch _ => pure ""
  pure ⟨bindings.flatten, file⟩

/-- Print what a program leaves behind, and give its exit code. -/
def Execution.report (e : Execution) : IO UInt32 := do
  IO.print e.output
  IO.eprint e.errors
  match e.ending with
  | .exit code => pure code.toUInt32
  | .failure e => do
    IO.eprintln e.message
    pure 1

end Workforce.CommandLine

open Workforce.CommandLine in
/-- Run the simulation or the demonstration. -/
def main (arguments : List String) : IO UInt32 := do
  let env ← readEnvironment
  match arguments with
  | "demo" :: rest => (executeDemo env rest).report
  | _ => (executeSimulation "run_economy.py" env arguments).report
