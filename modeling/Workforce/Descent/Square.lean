import Workforce.Descent.Problem
import Workforce.Number.Single

/-!
# The squared problem

The residuals of the squared problem are `(A x)² - b`, entry by entry. Row `r` of its Jacobian is
`2 (A x)ᵣ` times row `r` of `A`, multiplied in binary64 and then rounded.
-/

namespace Workforce

namespace Problem

/-- The Jacobian of the squared problem where `A x` has the given entries. -/
def squareJacobian (A y : Grid Float32) : Grid Float32 :=
  ⟨Mat.ofFn fun (r : Fin A.rows) (c : Fin A.cols) =>
    narrow ((2.0 * widen ((y.get? r 0).getD 0)) * widen (A.body.get r c))⟩

/-- The problem with residuals `(A x)² - b`. -/
def square (A b : Grid Float32) : Problem Float32 where
  equations := A.rows
  parameters := A.cols
  residual x := checked do
    let y ← A.mul x
    (← y.entrywiseMul y).sub b
  jacobian x := checked do
    pure (squareJacobian A (← A.mul x))

end Problem

end Workforce
