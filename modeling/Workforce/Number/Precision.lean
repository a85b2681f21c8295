/-!
# What a computation needs to know about its entries

Matrix code below is written for any type with arithmetic operations. Two more facts about the
number type steer it: how precise the type is (`Precision`), and how the scalars that steer a
computation relate to the entries of its matrices (`Steering`). Neither class asks for a law, so
the same definitions run on floating point numbers and are read over exact fields.
-/

namespace Workforce

/-- Precision of a number type, as far as inverting a matrix depends on it. -/
class Precision (α : Type) where
  /-- Neither infinite nor undefined. -/
  isFinite : α → Bool
  /-- The power of two that brings a positive number into the interval from `1` to `2`. -/
  normalizer : α → α
  /-- The least reciprocal condition number at which a system still counts as regular. -/
  epsilon : α
  /-- How large a diagonal entry of a symmetric matrix has to be to serve as a pivot, compared with
  the largest entry beside it. -/
  pivotThreshold : α

/-- Scalars of type `σ` steer computations on matrices with entries in `α`. -/
class Steering (σ α : Type) where
  /-- Round a scalar to an entry; `none` for one beyond the range of any rounding. -/
  toEntry : σ → Option α
  /-- Read an entry as a scalar, without loss. -/
  ofEntry : α → σ

/-- An entry is a scalar as it stands. -/
instance Steering.self {α : Type} : Steering α α := ⟨some, id⟩

end Workforce
