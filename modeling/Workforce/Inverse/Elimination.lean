import Workforce.Mat.Algebra
import Workforce.Number.Order
import Workforce.Number.Precision

/-!
# Elimination

The inverse of a matrix is the solution of the system with the identity as its right hand side. It
is found by clearing the columns of the matrix from left to right with row operations, which are
applied to the identity as well. The pivot of a column is its entry of largest absolute value among
the rows not used yet. A matrix without a pivot is singular.
-/

namespace Workforce

variable {α : Type} {m n : Nat}

/-- Why a system is not solved, in the words of what solves it. -/
inductive SystemError where
  /-- There is a zero where the system needs a pivot. -/
  | singular (text : String)
  /-- The system is so close to a singular one that its solution cannot be trusted. -/
  | illConditioned (text : String)
deriving DecidableEq, Repr

namespace Mat

/-- Exchange two rows. -/
def swapRows (A : Mat α m n) (p q : Fin m) : Mat α m n :=
  ofFn fun i j => A.get (if i = p then q else if i = q then p else i) j

/-- Subtract from every row but row `k` its multiple of row `k`. -/
def subtractRow [Sub α] [Mul α] (A : Mat α m n) (k : Fin m) (factor : Vector α m) : Mat α m n :=
  ofFn fun i j => if i = k then A.get i j else A.get i j - factor.get i * A.get k j

@[simp] theorem get_swapRows (A : Mat α m n) (p q i : Fin m) (j : Fin n) :
    (A.swapRows p q).get i j = A.get (if i = p then q else if i = q then p else i) j := get_ofFn ..

@[simp] theorem get_subtractRow [Sub α] [Mul α] (A : Mat α m n) (k i : Fin m)
    (factor : Vector α m) (j : Fin n) : (A.subtractRow k factor).get i j =
      if i = k then A.get i j else A.get i j - factor.get i * A.get k j := get_ofFn ..

/-- The row, among row `k` and those below it, with the largest entry in column `k`. -/
def pivotRow [Zero α] [Neg α] [LT α] [DecidableLT α] (A : Mat α n n) (k : Fin n) : Fin n :=
  (List.finRange n).foldl
    (fun p i =>
      if k < i ∧ magnitude (A.get p k) < magnitude (A.get i k) then i else p) k

end Mat

/-- A system in the course of elimination: the matrix and what became of the right hand side. -/
structure Augmented (α : Type) (n : Nat) where
  left : Mat α n n
  right : Mat α n n

namespace Augmented

/-- Subtract from every other row the multiple of row `k` that clears its entry in column `k`. -/
def clear [Sub α] [Mul α] [Div α] (S : Augmented α n) (k : Fin n) : Augmented α n :=
  let factor := Vector.ofFn fun i => S.left.get i k / S.left.get k k
  ⟨S.left.subtractRow k factor, S.right.subtractRow k factor⟩

/-- Bring the pivot of column `k` into row `k` and clear the column; `none` without a pivot. -/
def step [Zero α] [Sub α] [Mul α] [Div α] [Neg α] [BEq α] [LT α] [DecidableLT α]
    (S : Augmented α n) (k : Fin n) : Option (Augmented α n) :=
  let p := S.left.pivotRow k
  if S.left.get p k == 0 then none
  else some (clear ⟨S.left.swapRows k p, S.right.swapRows k p⟩ k)

/-- Divide every row by its pivot. -/
def quotient [Div α] (S : Augmented α n) : Mat α n n :=
  Mat.ofFn fun i j => S.right.get i j / S.left.get i i

end Augmented

namespace Mat

variable [Zero α] [One α] [Add α] [Sub α] [Mul α] [Div α] [Neg α] [BEq α] [LT α] [DecidableLT α]

/-- The inverse by elimination, unless some column has no pivot. -/
def eliminate (A : Mat α n n) : Except SystemError (Mat α n n) :=
  match (List.finRange n).foldlM Augmented.step ⟨A, identity⟩ with
  | some S => .ok S.quotient
  | none => .error (.singular "a column has no pivot.")

end Mat

end Workforce
