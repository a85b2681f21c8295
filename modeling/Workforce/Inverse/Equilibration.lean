import Workforce.Mat.Algebra
import Workforce.Number.Order
import Workforce.Number.Precision

/-!
# Equilibration

Before a system is solved its rows, and then its columns, are multiplied by powers of two that
bring their largest entries into the interval from `1` to `2`. Badly scaled systems are then not
mistaken for singular ones, and powers of two cause no rounding. A line of zeros cannot be scaled.
-/

namespace Workforce

variable {α : Type} {m n : Nat}

namespace Mat

/-- The largest absolute value in each row. -/
def rowPeaks [Zero α] [Neg α] [BEq α] [LT α] [DecidableLT α] (A : Mat α m n) : Vector α m :=
  Vector.ofFn fun i => peak ((A.row i).map magnitude)

/-- Multiply every row by its factor. -/
def scaleRows [Mul α] (A : Mat α m n) (factors : Vector α m) : Mat α m n :=
  ofFn fun i j => A.get i j * factors.get i

/-- Multiply every column by its factor. -/
def scaleColumns [Mul α] (A : Mat α m n) (factors : Vector α n) : Mat α m n :=
  ofFn fun i j => A.get i j * factors.get j

@[simp] theorem get_scaleRows [Mul α] (A : Mat α m n) (factors : Vector α m) (i : Fin m)
    (j : Fin n) : (A.scaleRows factors).get i j = A.get i j * factors.get i := by simp [scaleRows]

@[simp] theorem get_scaleColumns [Mul α] (A : Mat α m n) (factors : Vector α n) (i : Fin m)
    (j : Fin n) : (A.scaleColumns factors).get i j = A.get i j * factors.get j := by
  simp [scaleColumns]

end Mat

/-- The line named when some line has peak zero: the first whose peak does not compare, and
otherwise the first whose peak is zero. -/
def zeroLine? [Zero α] [BEq α] (peaks : Vector α n) : Option (Fin n) :=
  if peaks.any (· == 0) then
    (peaks.findFinIdx? fun p => !isProper p) <|> peaks.findFinIdx? (· == 0)
  else none

/-- A system with rows and columns scaled, and the factors that scaled them. -/
structure Equilibrated (α : Type) (n : Nat) where
  scaled : Mat α n n
  rowFactors : Vector α n
  columnFactors : Vector α n

/-- The line of zeros because of which a system cannot be equilibrated. -/
inductive ZeroLine where
  | row (i : Nat)
  | column (j : Nat)
deriving DecidableEq, Repr

/-- Scale rows and then columns. -/
def Mat.equilibrate [Zero α] [Mul α] [Neg α] [BEq α] [LT α] [DecidableLT α] [Precision α]
    (D : Mat α n n) : Except ZeroLine (Equilibrated α n) :=
  let rowPeaks := D.rowPeaks
  match zeroLine? rowPeaks with
  | some i => .error (.row i)
  | none =>
    let rowFactors := rowPeaks.map Precision.normalizer
    let halfScaled := D.scaleRows rowFactors
    let columnPeaks := halfScaled.transpose.rowPeaks
    match zeroLine? columnPeaks with
    | some j => .error (.column j)
    | none =>
      let columnFactors := columnPeaks.map Precision.normalizer
      .ok ⟨halfScaled.scaleColumns columnFactors, rowFactors, columnFactors⟩

end Workforce
