import Workforce.Comparison
import Workforce.Request.Error

/-!
# Requests about matrices

The inverse, the normal matrix, the damped inverse and the flow inverse of a matrix, and a
comparison of the last two. Matrices are built first, then parameters are checked in the order in
which they are used.
-/

namespace Workforce.Request

open Answer

variable [LinearSolver Float32]

/-- The matrix that a literal writes. -/
def matrix (l : Literal) : Answer (Grid Float32) := ofBuild (Grid.ofLiteral l)

/-- The vector that a literal writes. -/
def vector (l : Literal) : Answer (Grid Float32) := ofBuild (Grid.columnOfLiteral l)

/-- The inverse of a matrix. -/
def inverse (d : Literal) : Answer (Grid Float32) := do ofSolve (← matrix d).invert

/-- A damping as an entry; it must not be negative. -/
def damping (l : Literal) : Answer Float32 := do
  let q ← ofParameter (checkDamping l)
  ofSolve (entryOf q.val)

/-- The damped normal matrix of a Jacobian. -/
def normal (j beta : Literal) : Answer (Grid Float32) := do
  let J ← matrix j
  pure ⟨J.body.normal (← damping beta)⟩

/-- The damped left inverse of a matrix. -/
def dampedInverse (a beta : Literal) : Answer (Grid Float32) := do
  let A ← matrix a
  pure ⟨← ofInversion (A.body.dampedInverse (← damping beta))⟩

/-- The flow inverse of a matrix. -/
def flow (a depth : Literal) : Answer (Grid Float32) := do
  let A ← matrix a
  pure ⟨A.body.flowInverse (← ofParameter (depth.levels A.rows))⟩

/-- The flow inverse of a matrix beside its damped left inverse. -/
structure Compared where
  {rows cols : Nat}
  comparison : Comparison Float32 rows cols

/-- Compare the flow inverse of a matrix with its damped left inverse. -/
def compare (a depth beta : Literal) : Answer Compared := do
  let A ← matrix a
  let levels ← ofParameter (depth.levels A.rows)
  pure ⟨← ofInversion (A.body.compareInverses levels (← damping beta))⟩

/-- The residuals `A x - b`. -/
def residual (a b x : Literal) : Answer (Grid Float32) := do
  let A ← matrix a
  let b ← vector b
  ofSolve (Problem.linearResidual A b (← vector x))

/-- The entry that a matrix is multiplied with by a literal on its left. -/
def multiplier : Literal → Answer Float32
  | .number q => ofSolve (entryOf q)
  | l =>
    if l.isSequence then .error (.operand (.notRepeated "Matrix"))
    else .error (.operand (.unsupported "*" l.kind "Matrix"))

/-- The Jacobian `k A` of the linear problem. -/
def jacobian (a scale : Literal) : Answer (Grid Float32) := do
  let A ← matrix a
  pure (A.scale (← multiplier scale))

end Workforce.Request
