import Workforce.CommandLine.Usage
import Workforce.Request.Descent

/-!
# Executions

What a program leaves behind: its exit code, unless an error got out of it, and what it has
printed.
-/

namespace Workforce.CommandLine

/-- How a program ends. -/
inductive Ending where
  | exit (code : Nat)
  | failure (e : RequestError)

/-- What a program leaves behind. -/
structure Execution where
  ending : Ending
  output : String
  errors : String

namespace Execution

/-- Lines, each with its end. -/
def ofLines (ending : Ending) (lines : List String) : Execution :=
  ⟨ending, String.join (lines.map (· ++ "\n")), ""⟩

/-- Nothing printed. -/
def failed (e : RequestError) : Execution := ⟨.failure e, "", ""⟩

end Execution

/-- Run a program whose settings are loaded before its arguments are read. -/
def Program.execute (p : Program) (env : Environment) (arguments : List String)
    (main : Settings → List (String × OptionValue) → Except UsageError Execution) : Execution :=
  match Request.ambient env with
  | .error e => .failed e
  | .ok settings =>
    match parse p.options arguments with
    | .error e => ⟨.exit 2, "", p.refusal e⟩
    | .ok .help => ⟨.exit 0, p.help, ""⟩
    | .ok (.run values) =>
      match main settings values with
      | .ok execution => execution
      | .error e => ⟨.exit 2, "", p.refusal e⟩

/-- The option that asks for help. -/
def helpOption : OptionSpec := ⟨"--help", .help, "", "show this help message and exit"⟩

/-- The option for the damping. -/
def dampingOption : OptionSpec :=
  ⟨"--beta", .real, "BETA", "Damping added to the normal equations (0 = Gauss-Newton)"⟩

end Workforce.CommandLine
