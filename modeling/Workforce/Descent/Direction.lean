import Workforce.Descent.Problem

/-!
# The damped direction

At parameters `x` with residuals `f` and Jacobian `J`, the direction of descent is
`-(Jᵀ J + β I)⁻¹ Jᵀ f`.
-/

namespace Workforce

variable {σ α : Type}
variable [Zero α] [One α] [Add α] [Mul α] [Neg α] [Inverter α] [Steering σ α]

/-- A scalar, rounded to an entry. -/
def entryOf (s : σ) : Except SolveError α :=
  match Steering.toEntry s with
  | some a => .ok a
  | none => .error .tooLarge

/-- The damped direction of descent at `x`. -/
def Problem.direction (p : Problem α) (damping : σ) (x : Grid α) : Except SolveError (Grid α) := do
  let J ← p.jacobian x
  let D : Grid α := ⟨J.body.normal (← entryOf damping)⟩
  let inverse ← D.invert
  let f ← p.residual x
  pure (← checked (inverse.mul (← checked (J.transpose.mul f)))).neg

end Workforce
