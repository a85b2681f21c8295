import Workforce.Flow
import Workforce.Inverse.Basic

/-!
# Comparing inverses

The flow inverse of a matrix is compared with its damped left inverse: how far their entries are
apart at most, and how far the flow inverse is from a right inverse.
-/

namespace Workforce

variable {α : Type} {m n : Nat}

/-- The flow inverse of a matrix beside its damped left inverse. -/
structure Comparison (α : Type) (m n : Nat) where
  approximate : Mat α n m
  exact : Mat α n m
  /-- The largest distance of two entries. -/
  deviation : α
  /-- The squared norm of `A X - I` for the flow inverse `X`. -/
  residual : α

/-- Compare the two inverses of `A`. -/
def Mat.compareInverses [Zero α] [One α] [Add α] [Sub α] [Mul α] [Div α] [Neg α] [BEq α] [LT α]
    [LE α] [DecidableLT α] [DecidableLE α] [Inverter α] (A : Mat α m n) (levels : Nat) (β : α) :
    Except InversionError (Comparison α m n) := do
  let approximate := A.flowInverse levels
  let exact ← A.dampedInverse β
  pure
    { approximate
      exact
      deviation := peak ((approximate - exact).entries.map magnitude)
      residual := (A * approximate - identity).normSquared }

end Workforce
