import Workforce.Grid.Basic
import Workforce.Proofs.Mat.Matrix

/-!
# Matrices in another order

The rows and columns of a stored matrix are put in another order by permutations of their indices.
On what it is read as, this is a submatrix; the same is done to the rows of a grid.
-/

namespace Workforce

variable {α : Type} {m n : ℕ}

namespace Mat

/-- The matrix with its rows and columns in another order. -/
def reordered (A : Mat α m n) (σ : Equiv.Perm (Fin m)) (τ : Equiv.Perm (Fin n)) : Mat α m n :=
  .ofFn fun i j => A.get (σ i) (τ j)

@[simp] lemma get_reordered (A : Mat α m n) (σ : Equiv.Perm (Fin m)) (τ : Equiv.Perm (Fin n))
    (i : Fin m) (j : Fin n) : (A.reordered σ τ).get i j = A.get (σ i) (τ j) := get_ofFn ..

@[simp] lemma reordered_one (A : Mat α m n) : A.reordered 1 1 = A := by
  ext
  simp

lemma toMatrix_reordered (A : Mat α m n) (σ : Equiv.Perm (Fin m)) (τ : Equiv.Perm (Fin n)) :
    (A.reordered σ τ).toMatrix = A.toMatrix.submatrix σ τ := by
  ext
  simp

lemma toVec_reordered (x : Mat α n 1) (τ : Equiv.Perm (Fin n)) :
    (x.reordered τ 1).toVec = x.toVec ∘ τ := by
  ext
  simp

end Mat

namespace Grid

/-- The grid with its rows in another order, where it has as many as are reordered. -/
def reordered (A : Grid α) (σ : Equiv.Perm (Fin m)) : Grid α :=
  if h : A.rows = m then ⟨(h ▸ A.body : Mat α m A.cols).reordered σ 1⟩ else A

@[simp] lemma reordered_mk (A : Mat α m n) (σ : Equiv.Perm (Fin m)) :
    (Grid.mk A).reordered σ = ⟨A.reordered σ 1⟩ := by
  simp [reordered]

lemma reordered_one (A : Grid α) : A.reordered (1 : Equiv.Perm (Fin m)) = A := by
  rw [reordered]
  split_ifs with h
  · subst h
    rw [Mat.reordered_one]
  · rfl

end Grid

end Workforce
