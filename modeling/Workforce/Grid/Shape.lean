import Workforce.Literal.Basic

/-!
# Shapes and their errors

Operations check the shapes of their operands before anything is computed. Each check that can
fail is a constructor of `ShapeError`, with the shapes that did not fit.
-/

namespace Workforce

/-- Rows and columns of a matrix. -/
structure Shape where
  rows : Nat
  cols : Nat
deriving DecidableEq, Repr

/-- Lengths joined by a multiplication sign. -/
def joinLengths (lengths : List String) : String := "×".intercalate lengths

def Shape.text (s : Shape) : String := joinLengths [toString s.rows, toString s.cols]

/-- Operations on two matrices of the same shape. -/
inductive EntrywiseOp where
  | add
  | subtract
  | multiply
  | zip
deriving DecidableEq, Repr

def EntrywiseOp.text : EntrywiseOp → String
  | add => "add"
  | subtract => "subtract"
  | multiply => "multiply element-wise"
  | zip => "zip"

/-- Why operands do not fit together. -/
inductive ShapeError where
  /-- A matrix with a negative number of rows or columns was asked for. -/
  | negative (rows cols : Literal)
  /-- An entry by entry operation on two shapes. -/
  | unequal (op : EntrywiseOp) (left right : Shape)
  /-- A product whose inner lengths differ. -/
  | inner (left right : Shape)
  /-- The rows of a matrix are uneven, or one of its entries is no number. -/
  | unevenRows
  /-- A matrix from an array that does not have two dimensions. -/
  | notTwoDimensional (dimensions : Nat)
  /-- A matrix of another shape than announced. -/
  | unexpectedShape (expected : List Literal) (found : Shape)
  /-- The entries of a vector are not a flat list of numbers. -/
  | notFlat
  /-- A vector from an array that is not a single column. -/
  | notColumn (lengths : List Nat)
  /-- A vector of another length than announced. -/
  | unexpectedLength (expected : Literal) (found : Nat)
  /-- The inverse of a matrix that is not square. -/
  | notSquare (found : Shape)
  /-- A linear model whose right hand side has another length than its matrix has rows. -/
  | equations (rows length : Nat)
  /-- A step from a point that is no vector of as many entries as the model has parameters. -/
  | parameters (expected : Nat) (found : Shape)

namespace ShapeError

/-- What is wrong, without the phrase that all these messages begin with. -/
def detail : ShapeError → String
  | negative rows cols => "negative shape " ++ joinLengths [rows.plain, cols.plain]
  | unequal op left right => s!"cannot {op.text} {left.text} and {right.text}"
  | inner left right => s!"cannot multiply {left.text} by {right.text}"
  | unevenRows => "rows must all have the same length"
  | notTwoDimensional dimensions => s!"a matrix needs a 2-D buffer, got {dimensions}-D"
  | unexpectedShape expected found =>
    let expected := joinLengths (expected.map Literal.plain)
    s!"expected {expected}, got {found.text}"
  | notFlat => "a vector needs a flat sequence of numbers"
  | notColumn lengths =>
    let found := joinLengths (lengths.map toString)
    s!"a vector needs R×1 data, got {found}"
  | unexpectedLength expected found =>
    s!"expected a vector of {expected.plain} elements, got {found}"
  | notSquare found => s!"only square matrices can be inverted, got {found.text}"
  | equations rows length => s!"A has {rows} equations but b has {length} elements"
  | parameters expected found =>
    s!"model has {expected} parameters but x0 has shape ({found.rows}, {found.cols})"

def message (e : ShapeError) : String := s!"dimension mismatch: {e.detail}."

end ShapeError

end Workforce
