import Workforce.CommandLine.Execution

/-!
# The demonstration

The demonstration solves two equations in two unknowns by damped descent, from a fixed starting
point, and prints the point and its squared error after every step.
-/

namespace Workforce.CommandLine

open Decimal Request

/-- The demonstration as a program. -/
def demo : Program where
  name := "solve_demo.py"
  description := "Run the 2×2 Gauss-Newton demo"
  options :=
    [helpOption, ⟨"--steps", .integer, "STEPS", "Number of solver steps"⟩, dampingOption]

/-- Real numbers as a literal. -/
def realList (xs : List Float) : Literal := .list (xs.map .real)

/-- The equations `2 x + y = 3` and `3 x = 3`. -/
def demoMatrix : Literal := .list [realList [2.0, 1.0], realList [3.0, 0.0]]

/-- The right hand side of the equations. -/
def demoRightSide : Literal := realList [3.0, 3.0]

/-- Where the descent starts. -/
def demoStart : Literal := realList [10.4, 0.4]

/-- The line of a step: the point that it leads to and its squared error. -/
def demoLine (o : Outcome Quantity Float32) : String :=
  let xs := o.x.entries.map fun x => shortText (widen x)
  let point := " ".intercalate xs
  s!"[{point}] {o.errorAfter.text}"

variable [LinearSolver Float32]

/-- The steps of the demonstration. -/
def demoSteps (env : Environment) (settings : Settings) (steps : Int) (damping : Float) :
    Answer (List (Outcome Quantity Float32)) := do
  let p ← problem ⟨false, demoMatrix, demoRightSide, some (.real settings.jacobianScale)⟩
  let s ← descent env { damping := some (.real damping) }
  let x ← vector demoStart
  let n ← Answer.ofParameter (Literal.steps (.whole steps))
  Answer.ofSolve (s.iterate p.problem x n)

/-- Run the demonstration with the values of its options. -/
def runDemo (env : Environment) (settings : Settings) (values : List (String × OptionValue)) :
    Except UsageError Execution :=
  let steps := Invocation.integerD values "--steps" 5
  let damping := Invocation.realD values "--beta" 0
  if damping < 0 then .error (.negative "--beta")
  else
    match demoSteps env settings steps damping with
    | .ok os => .ok (.ofLines (.exit 0) (os.map demoLine))
    | .error (.solve (.inversion e)) =>
      if e.isSingular then .ok (.ofLines (.exit 1) [s!"ERROR: {e.message}"])
      else .ok (.failed (.solve (.inversion e)))
    | .error e => .ok (.failed e)

/-- The demonstration. -/
def executeDemo (env : Environment) (arguments : List String) : Execution :=
  demo.execute env arguments (runDemo env)

end Workforce.CommandLine
