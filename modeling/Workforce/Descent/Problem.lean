import Workforce.Grid.Basic
import Workforce.Inverse.Basic

/-!
# Least squares problems

A problem asks for parameters at which a list of residuals is small. It is given by two functions
of the parameters, the residuals and their Jacobian matrix, either of which may fail. The linear
problem has residuals `A x - b`; its Jacobian is a constant multiple of `A`.
-/

namespace Workforce

variable {α : Type}

/-- Why a computation on grids fails. -/
inductive SolveError where
  | shape (e : ShapeError)
  | inversion (e : InversionError)
  /-- A scalar is out of the range of entries. -/
  | tooLarge
  /-- A search without end. No run reports this error, since no run gets past such a search. -/
  | endless

namespace SolveError

def message : SolveError → String
  | shape e => e.message
  | inversion e => e.message
  | tooLarge => "int too large to convert to float"
  | endless => "the search does not end"

end SolveError

/-- Read an error of shape as an error of a computation. -/
def checked {β : Type} (x : Except ShapeError β) : Except SolveError β := x.mapError .shape

/-- Residuals and their Jacobian as functions of the parameters. -/
structure Problem (α : Type) where
  equations : Nat
  parameters : Nat
  residual : Grid α → Except SolveError (Grid α)
  jacobian : Grid α → Except SolveError (Grid α)

namespace Problem

/-- The sum of the squared residuals. -/
def error [Zero α] [Add α] [Mul α] (p : Problem α) (x : Grid α) : Except SolveError α :=
  (p.residual x).map Grid.normSquared

/-- The sum of the squared residuals, as a scalar. -/
def errorAt {σ : Type} [Zero α] [Add α] [Mul α] [Steering σ α] (p : Problem α) (x : Grid α) :
    Except SolveError σ :=
  (p.error x).map Steering.ofEntry

variable [Zero α] [Add α] [Sub α] [Mul α]

/-- The residuals `A x - b`. -/
def linearResidual (A b x : Grid α) : Except SolveError (Grid α) :=
  checked do (← A.mul x).sub b

/-- The linear problem with residuals `A x - b` and Jacobian `k A`. -/
def linear (A b : Grid α) (k : α) : Except ShapeError (Problem α) :=
  if b.rows = A.rows then
    .ok
      { equations := A.rows
        parameters := A.cols
        residual := linearResidual A b
        jacobian := fun _ => .ok (A.scale k) }
  else .error (.equations A.rows b.rows)

end Problem

namespace Grid

/-- The inverse of a square grid. -/
def invert [Inverter α] (D : Grid α) : Except SolveError (Grid α) :=
  if h : D.cols = D.rows then
    ((h ▸ D.body : Mat α D.rows D.rows).invert.map Grid.mk).mapError .inversion
  else .error (.shape (.notSquare D.shape))

@[simp] theorem invert_mk [Inverter α] {n : Nat} (D : Mat α n n) :
    Grid.invert ⟨D⟩ = (D.invert.map Grid.mk).mapError .inversion := by simp [Grid.invert]

end Grid

end Workforce
