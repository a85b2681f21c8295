import Workforce.Descent.Square
import Workforce.Request.Matrices

/-!
# Requests about descents

A problem and the parameters of a descent are given as literals. Parameters that are not given are
taken from the settings of the environment, which have to be valid in any case.
-/

namespace Workforce.Request

open Answer

/-- The settings of an environment. -/
def ambient (env : Environment) : Answer Settings := (Settings.load [] env).mapError .settings

/-- Parameters of a descent as they are given, if they are. -/
structure GivenParameters where
  damping : Option Literal := none
  start : Option Literal := none
  shrink : Option Literal := none
  floor : Option Literal := none

/-- A given literal, or a setting; `null` gives nothing. -/
def orSetting (given : Option Literal) (setting : Float) : Literal :=
  match given with
  | some .null => .real setting
  | some l => l
  | none => .real setting

/-- Given parameters, completed from settings. -/
def GivenParameters.complete (p : GivenParameters) (s : Settings) : Parameters where
  damping := orSetting p.damping s.damping
  start := orSetting p.start s.start
  shrink := orSetting p.shrink s.shrink
  floor := orSetting p.floor s.floor

/-- The descent with the given parameters. -/
def descent (env : Environment) (p : GivenParameters) : Answer (Descent Quantity) := do
  ofParameter (p.complete (← ambient env)).descent

/-- The damping of a descent as it is reported, which is a real number. -/
def reportedDamping (s : Descent Quantity) : Answer Float :=
  s.damping.toFloat?.mapError .conversion

/-- A problem as it is given. -/
structure GivenProblem where
  square : Bool
  a : Literal
  b : Literal
  scale : Option Literal

/-- A problem together with the matrix and right hand side that it was made from. -/
structure BuiltProblem where
  problem : Problem Float32
  A : Grid Float32
  b : Grid Float32

/-- The linear problem of `A` and `b` whose Jacobian is scaled by a literal. Shapes are checked
before the literal is. -/
def linearProblem (A b : Grid Float32) (scale : Literal) : Answer (Problem Float32) := do
  let _ ← ofShape (Problem.linear A b 1)
  ofShape (Problem.linear A b (← multiplier scale))

/-- The problem that is given. -/
def problem (p : GivenProblem) : Answer BuiltProblem := do
  let A ← matrix p.a
  let b ← vector p.b
  if p.square then pure ⟨.square A b, A, b⟩
  else pure ⟨← linearProblem A b (p.scale.getD (.real sqrtTwo)), A, b⟩

/-- Residuals, Jacobian and squared error at a point. -/
structure Evaluation where
  residual : Grid Float32
  jacobian : Grid Float32
  error : Float32

/-- Evaluate a problem at a point. -/
def evaluate (p : Problem Float32) (x : Literal) : Answer Evaluation := do
  let x ← vector x
  let residual ← ofSolve (p.residual x)
  let jacobian ← ofSolve (p.jacobian x)
  let error ← ofSolve (p.error x)
  pure ⟨residual, jacobian, error⟩

/-- What a descent is asked for. -/
inductive DescentCall where
  | direction
  | step
  | iterate (steps : Literal)

/-- An answer of a descent. -/
inductive DescentAnswer where
  | direction (d : Grid Float32)
  | step (o : Outcome Quantity Float32)
  | iterate (os : List (Outcome Quantity Float32))

/-- An answer of a descent, what it put on record, and the point that it has moved to. -/
structure CallResult where
  answer : Answer DescentAnswer
  record : List (Entry Quantity)
  x : Grid Float32

variable [LinearSolver Float32]

/-- Answer a call at a point. -/
def call (s : Descent Quantity) (p : Problem Float32) (x : Grid Float32) : DescentCall → CallResult
  | .direction => ⟨(ofSolve (p.direction s.damping x)).map .direction, [], x⟩
  | .step =>
    match s.step p x with
    | .ok r => ⟨.ok (.step r.outcome), r.record, r.outcome.x⟩
    | .error e => ⟨.error (.solve e), [], x⟩
  | .iterate steps =>
    match steps.steps with
    | .error e => ⟨.error (.parameter e), [], x⟩
    | .ok n =>
      let run := s.run p x n
      match run.failure with
      | some e => ⟨.error (.solve e), run.record, x⟩
      | none => ⟨.ok (.iterate run.outcomes), run.record, Outcome.lastPoint x run.outcomes⟩

/-- Answer calls one after the other, each from where the last one has moved to. -/
def calls (s : Descent Quantity) (p : Problem Float32) :
    Grid Float32 → List DescentCall → List CallResult
  | _, [] => []
  | x, c :: cs =>
    let r := call s p x c
    r :: calls s p r.x cs

/-- One step for the linear problem, whose Jacobian is scaled by a setting if no scale is given. -/
def solveStep (env : Environment) (a b x₀ beta : Literal) (scale : Option Literal) :
    Answer (Grid Float32) := do
  let A ← matrix a
  let b ← vector b
  let x₀ ← vector x₀
  let scale ← match scale with
    | none => do pure (Literal.real (← ambient env).jacobianScale)
    | some .null => do pure (Literal.real (← ambient env).jacobianScale)
    | some l => pure l
  let p ← linearProblem A b scale
  let s ← descent env { damping := some beta }
  pure (← ofSolve (s.step p x₀)).outcome.x

end Workforce.Request
