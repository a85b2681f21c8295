import Workforce.Proofs.Failure
import Workforce.Proofs.Mat.Matrix

/-!
# Laws of matrix arithmetic

In exact arithmetic stored matrices obey the laws of matrices of every shape, empty ones included,
since each operation is the one on what they are read as. Grids that fit obey the same laws: both
sides of an equation return, and they return the same grid (`Grid.arithmetic_laws`).
-/

namespace Workforce

variable {α : Type} {m n k l : ℕ}

namespace Mat

variable [CommRing α] (A A' : Mat α m n) (B B' : Mat α n k) (C : Mat α k l) (c : α)

/-! ### Products -/

protected lemma mul_assoc : A * B * C = A * (B * C) := by
  apply toMatrix_injective
  simp only [toMatrix_mul, Matrix.mul_assoc]

protected lemma mul_add : A * (B + B') = A * B + A * B' := by
  apply toMatrix_injective
  simp only [toMatrix_mul, toMatrix_add, Matrix.mul_add]

protected lemma add_mul : (A + A') * B = A * B + A' * B := by
  apply toMatrix_injective
  simp only [toMatrix_mul, toMatrix_add, Matrix.add_mul]

protected lemma mul_sub : A * (B - B') = A * B - A * B' := by
  apply toMatrix_injective
  simp only [toMatrix_mul, toMatrix_sub, Matrix.mul_sub]

protected lemma sub_mul : (A - A') * B = A * B - A' * B := by
  apply toMatrix_injective
  simp only [toMatrix_mul, toMatrix_sub, Matrix.sub_mul]

lemma scale_mul : A.scale c * B = (A * B).scale c := by
  apply toMatrix_injective
  simp only [toMatrix_mul, toMatrix_scale, Matrix.smul_mul]

lemma mul_scale : A * B.scale c = (A * B).scale c := by
  apply toMatrix_injective
  simp only [toMatrix_mul, toMatrix_scale, Matrix.mul_smul]

lemma identity_mul : (identity : Mat α m m) * A = A := by
  apply toMatrix_injective
  rw [toMatrix_mul, toMatrix_identity, Matrix.one_mul]

lemma mul_identity : A * (identity : Mat α n n) = A := by
  apply toMatrix_injective
  rw [toMatrix_mul, toMatrix_identity, Matrix.mul_one]

/-! ### Transposition -/

lemma transpose_mul : (A * B).transpose = B.transpose * A.transpose := by
  apply toMatrix_injective
  simp only [toMatrix_transpose, toMatrix_mul, Matrix.transpose_mul]

/-! ### The squared norm -/

/-- Rows and columns have the same squares. -/
lemma normSquared_transpose : A.transpose.normSquared = A.normSquared := by
  simp only [normSquared_eq_sum, get_transpose]
  exact Finset.sum_comm

/-- The squares of a column add up to a diagonal entry of `Aᵀ A`. -/
lemma sum_get_transpose_mul_self : ∑ j, (A.transpose * A).get j j = A.normSquared := by
  rw [← normSquared_transpose, normSquared_eq_sum]
  simp only [get_mul, sumFin_eq_sum, get_transpose]

end Mat

namespace Grid

/-- Two computations return, and they return the same grid. -/
def Agree (x y : Except ShapeError (Grid α)) : Prop := ∃ A, x = .ok A ∧ y = .ok A

lemma agree_ok {A B : Mat α m n} (h : A = B) : Agree (.ok ⟨A⟩) (.ok ⟨B⟩) := ⟨⟨A⟩, rfl, by rw [h]⟩

/-- Products of grids that fit are associative, they distribute over sums and differences on either
side, and scalars move through them. Identities are neutral on either side. Transposition reverses
products and undoes itself. The squared norm is that of the transposed grid, and it is the sum over
the columns of the diagonal of `Aᵀ A`. -/
theorem arithmetic_laws [CommRing α] (A A' : Mat α m n) (B B' : Mat α n k) (C : Mat α k l) (c : α) :
    Agree (do (← mul ⟨A⟩ ⟨B⟩).mul ⟨C⟩) (do mul ⟨A⟩ (← mul ⟨B⟩ ⟨C⟩)) ∧
    Agree (do mul ⟨A⟩ (← add ⟨B⟩ ⟨B'⟩)) (do (← mul ⟨A⟩ ⟨B⟩).add (← mul ⟨A⟩ ⟨B'⟩)) ∧
    Agree (do (← add ⟨A⟩ ⟨A'⟩).mul ⟨B⟩) (do (← mul ⟨A⟩ ⟨B⟩).add (← mul ⟨A'⟩ ⟨B⟩)) ∧
    Agree (do mul ⟨A⟩ (← sub ⟨B⟩ ⟨B'⟩)) (do (← mul ⟨A⟩ ⟨B⟩).sub (← mul ⟨A⟩ ⟨B'⟩)) ∧
    Agree (do (← sub ⟨A⟩ ⟨A'⟩).mul ⟨B⟩) (do (← mul ⟨A⟩ ⟨B⟩).sub (← mul ⟨A'⟩ ⟨B⟩)) ∧
    Agree (mul (scale ⟨A⟩ c) ⟨B⟩) (do pure ((← mul ⟨A⟩ ⟨B⟩).scale c)) ∧
    Agree (mul ⟨A⟩ (scale ⟨B⟩ c)) (do pure ((← mul ⟨A⟩ ⟨B⟩).scale c)) ∧
    mul (identity m) ⟨A⟩ = .ok ⟨A⟩ ∧ mul ⟨A⟩ (identity n) = .ok ⟨A⟩ ∧
    Agree (do pure (← mul ⟨A⟩ ⟨B⟩).transpose) (mul (transpose ⟨B⟩) (transpose ⟨A⟩)) ∧
    (transpose ⟨A⟩).transpose = ⟨A⟩ ∧
    (transpose ⟨A⟩).normSquared = normSquared ⟨A⟩ ∧
    ∃ G : Mat α n n, mul (transpose ⟨A⟩) ⟨A⟩ = .ok ⟨G⟩ ∧ normSquared ⟨A⟩ = ∑ j, G.get j j := by
  -- the shapes fit, so every check passes and the laws are those of matrices
  simp only [mul_mk, add_mk, sub_mk, ok_bind, pure_eq_ok, scale, identity, transpose]
  refine ⟨agree_ok (A.mul_assoc B C), agree_ok (A.mul_add B B'), agree_ok (A.add_mul A' B),
    agree_ok (A.mul_sub B B'), agree_ok (A.sub_mul A' B), agree_ok (A.scale_mul B c),
    agree_ok (A.mul_scale B c), ?_, ?_, agree_ok (A.transpose_mul B), ?_,
    A.normSquared_transpose, A.transpose * A, rfl, A.sum_get_transpose_mul_self.symm⟩
  · rw [A.identity_mul]
  · rw [A.mul_identity]
  · rw [A.transpose_transpose]

end Grid

end Workforce
