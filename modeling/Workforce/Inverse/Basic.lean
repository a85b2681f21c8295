import Workforce.Inverse.Condition
import Workforce.Inverse.Equilibration
import Workforce.Grid.Basic
import Workforce.Number.Single

/-!
# Inverting

A square matrix is equilibrated, the scaled system is solved, and the solution is scaled back.
`Mat.invertWith` leaves open how the scaled system is solved, and what uses inverses leaves open how
they are found. Entries come with a `LinearSolver`, or with an `Inverter` of their own. The solver
that comes with binary32 entries eliminates to working precision.
-/

namespace Workforce

variable {α : Type} {m n : Nat}

/-- Why a square matrix is not inverted. -/
inductive InversionError where
  /-- A row or column of zeros. -/
  | zeroLine (size : Nat) (line : ZeroLine)
  /-- The scaled system is not solved. -/
  | unsolved (size : Nat) (e : SystemError)
  /-- The solution leaves the range of numbers when it is scaled back. -/
  | overflow (size : Nat)
  /-- The scaled system has infinite or undefined entries. -/
  | notFinite
  /-- There are no entries to scale. -/
  | empty
deriving DecidableEq, Repr

namespace InversionError

/-- Whether an error says that the matrix is singular. -/
def isSingular : InversionError → Bool
  | zeroLine .. => true
  | unsolved .. => true
  | overflow _ => true
  | notFinite => false
  | empty => false

def message : InversionError → String
  | zeroLine size (.row i) => s!"{size}×{size} matrix is singular: row {i} is zero."
  | zeroLine size (.column j) => s!"{size}×{size} matrix is singular: column {j} is zero."
  | unsolved size (.singular text) => s!"{size}×{size} matrix is singular: {text}"
  | unsolved size (.illConditioned text) =>
    s!"{size}×{size} matrix is singular to working precision: {text}"
  | overflow size => s!"{size}×{size} matrix is singular: inverse has non-finite entries."
  | notFinite => "array must not contain infs or NaNs"
  | empty => "zero-size array to reduction operation maximum which has no identity"

end InversionError

/-- A way to solve systems whose right hand side is the identity. -/
class LinearSolver (α : Type) where
  /-- The solution of a system, or why it is not solved. -/
  solveIdentity {n : Nat} : Mat α n n → Except SystemError (Mat α n n)

/-- A way to invert square matrices. -/
class Inverter (α : Type) where
  /-- The inverse of a matrix, or why it is not inverted. -/
  invert {n : Nat} : Mat α n n → Except InversionError (Mat α n n)

namespace Mat

/-- Whether all entries are finite. -/
def isFinite [Precision α] (A : Mat α m n) : Bool := A.entries.all Precision.isFinite

section

variable [Zero α] [Mul α] [Neg α] [BEq α] [LT α] [DecidableLT α] [Precision α]

/-- The inverse of `D`, where `solve` solves the scaled system. -/
def invertWith (solve : Mat α n n → Except SystemError (Mat α n n)) (D : Mat α n n) :
    Except InversionError (Mat α n n) :=
  if n = 0 then .error .empty
  else
    match D.equilibrate with
    | .error line => .error (.zeroLine n line)
    | .ok E =>
      if !E.scaled.isFinite then .error .notFinite
      else
        match solve E.scaled with
        | .error e => .error (.unsolved n e)
        | .ok X =>
          let inverse := (X.scaleRows E.columnFactors).scaleColumns E.rowFactors
          if inverse.isFinite then .ok inverse else .error (.overflow n)

instance [LinearSolver α] : Inverter α := ⟨invertWith LinearSolver.solveIdentity⟩

end

instance : LinearSolver Float32 := ⟨solveIdentity⟩

/-- The inverse of `D`. -/
def invert [Inverter α] (D : Mat α n n) : Except InversionError (Mat α n n) := Inverter.invert D

variable [Zero α] [One α] [Add α] [Mul α]

/-- The damped normal matrix `Jᵀ J + β I` of a Jacobian. -/
def normal (J : Mat α m n) (β : α) : Mat α n n := J.transpose * J + identity.scale β

/-- The damped left inverse `(Aᵀ A + β I)⁻¹ Aᵀ`. -/
def dampedInverse [Inverter α] (A : Mat α m n) (β : α) : Except InversionError (Mat α n m) := do
  pure ((← (A.normal β).invert) * A.transpose)

end Mat

end Workforce
