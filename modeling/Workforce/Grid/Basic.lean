import Workforce.Grid.Shape
import Workforce.Mat.Algebra

/-!
# Matrices whose shape is known at run time

A `Grid` is a matrix together with its shape. Its operations compare shapes first and then are
those of `Mat`; nothing is broadcast, padded or cut off. The lemmas state each operation on grids
that fit, where it never fails.
-/

namespace Workforce

/-- A matrix with its shape. -/
structure Grid (α : Type) where
  {rows cols : Nat}
  body : Mat α rows cols
deriving DecidableEq

namespace Grid

variable {α : Type}

def shape (A : Grid α) : Shape := ⟨A.rows, A.cols⟩

/-- The entry in row `i` and column `j`, if there is one. -/
def get? (A : Grid α) (i j : Nat) : Option α :=
  if h : i < A.rows ∧ j < A.cols then some (A.body.get ⟨i, h.1⟩ ⟨j, h.2⟩) else none

/-- All entries, row by row. -/
def entries (A : Grid α) : List α := A.body.entries

/-- The rows, each from left to right. -/
def toLists (A : Grid α) : List (List α) := (List.finRange A.rows).map A.body.row

/-- A single column with the given entries. -/
def ofColumn (as : List α) : Grid α := ⟨Mat.ofFn (m := as.length) (n := 1) fun i _ => as[i]⟩

/-- Replace one entry, if it exists. -/
def set (A : Grid α) (i j : Nat) (a : α) : Grid α :=
  if h : i < A.rows ∧ j < A.cols then ⟨A.body.set ⟨i, h.1⟩ ⟨j, h.2⟩ a⟩ else A

/-- Combine two grids of the same shape entry by entry. -/
def combine (op : EntrywiseOp) (f : α → α → α) (A B : Grid α) : Except ShapeError (Grid α) :=
  if h : B.rows = A.rows ∧ B.cols = A.cols then
    .ok ⟨Mat.zipWith f A.body (h.1 ▸ h.2 ▸ B.body)⟩
  else .error (.unequal op A.shape B.shape)

def add [Add α] : Grid α → Grid α → Except ShapeError (Grid α) := combine .add (· + ·)

def sub [Sub α] : Grid α → Grid α → Except ShapeError (Grid α) := combine .subtract (· - ·)

/-- The entry by entry product. -/
def entrywiseMul [Mul α] : Grid α → Grid α → Except ShapeError (Grid α) :=
  combine .multiply (· * ·)

def neg [Neg α] (A : Grid α) : Grid α := ⟨-A.body⟩

def scale [Mul α] (A : Grid α) (k : α) : Grid α := ⟨A.body.scale k⟩

def transpose (A : Grid α) : Grid α := ⟨A.body.transpose⟩

def mul [Zero α] [Add α] [Mul α] (A B : Grid α) : Except ShapeError (Grid α) :=
  if h : B.rows = A.cols then .ok ⟨A.body * (h ▸ B.body : Mat α A.cols B.cols)⟩
  else .error (.inner A.shape B.shape)

def normSquared [Zero α] [Add α] [Mul α] (A : Grid α) : α := A.body.normSquared

/-- Entry by entry equality; grids of different shapes are unequal. -/
def beq [BEq α] (A B : Grid α) : Bool := A.shape == B.shape && A.entries == B.entries

/-- The identity matrix with `n` rows. -/
def identity [Zero α] [One α] (n : Nat) : Grid α := ⟨(Mat.identity : Mat α n n)⟩

/-! ### Operations on grids that fit -/

variable {m n k : Nat}

@[simp] theorem rows_mk (A : Mat α m n) : (Grid.mk A).rows = m := rfl

@[simp] theorem cols_mk (A : Mat α m n) : (Grid.mk A).cols = n := rfl

@[simp] theorem shape_mk (A : Mat α m n) : (Grid.mk A).shape = ⟨m, n⟩ := rfl

theorem exists_eq_mk_of_shape_eq {A : Grid α} (h : A.shape = ⟨m, n⟩) :
    ∃ B : Mat α m n, A = ⟨B⟩ := by
  cases h
  exact ⟨A.body, rfl⟩

@[simp] theorem combine_mk (op : EntrywiseOp) (f : α → α → α) (A B : Mat α m n) :
    combine op f ⟨A⟩ ⟨B⟩ = .ok ⟨Mat.zipWith f A B⟩ := by simp [combine]

@[simp] theorem add_mk [Add α] (A B : Mat α m n) : add ⟨A⟩ ⟨B⟩ = .ok ⟨A + B⟩ := combine_mk ..

@[simp] theorem sub_mk [Sub α] (A B : Mat α m n) : sub ⟨A⟩ ⟨B⟩ = .ok ⟨A - B⟩ := combine_mk ..

/-- What is combined entry by entry has the shape of the first operand. -/
theorem shape_of_combine {op : EntrywiseOp} {f : α → α → α} {A B C : Grid α}
    (h : combine op f A B = .ok C) : C.shape = A.shape := by
  rw [combine] at h
  split at h
  · cases h
    rfl
  · cases h

@[simp] theorem mul_mk [Zero α] [Add α] [Mul α] (A : Mat α m k) (B : Mat α k n) :
    mul ⟨A⟩ ⟨B⟩ = .ok ⟨A * B⟩ := by simp [mul]

end Grid

end Workforce
