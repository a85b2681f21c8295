import Mathlib.Algebra.BigOperators.Fin
import Mathlib.LinearAlgebra.Matrix.DotProduct
import Mathlib.Tactic.Abel
import Workforce.Mat.Algebra

/-!
# Stored matrices as functions of their indices

A stored matrix is read as a matrix over its entries, `toMatrix`, and a stored column as a vector,
`toVec`. In exact arithmetic every operation on stored matrices is the operation on what they are
read as, whatever the order in which its sums are taken.
-/

namespace Workforce

open Matrix

variable {α : Type} {m n k : ℕ}

/-! ### Sums -/

section Sums

variable [AddCommMonoid α]

lemma sumFin_eq_sum (f : Fin n → α) : sumFin n f = ∑ i, f i := by
  rw [sumFin, Fin.sum_univ_def, List.sum_eq_foldl, List.foldl_map]

lemma sumEights_eq_sum (s₀ s₁ s₂ s₃ s₄ s₅ s₆ s₇ : α) (as : List α) :
    sumEights s₀ s₁ s₂ s₃ s₄ s₅ s₆ s₇ as =
      s₀ + s₁ + s₂ + s₃ + s₄ + s₅ + s₆ + s₇ + as.sum := by
  fun_induction sumEights with
  | case1 s₀ s₁ s₂ s₃ s₄ s₅ s₆ s₇ a₀ a₁ a₂ a₃ a₄ a₅ a₆ a₇ rest ih =>
    rw [ih]
    simp only [List.sum_cons]
    abel
  | case2 s₀ s₁ s₂ s₃ s₄ s₅ s₆ s₇ rest h =>
    rw [← zero_add (_ + _ + _), ← List.foldl_cons, ← List.sum_eq_foldl, List.sum_cons]
    abel

lemma sumBlock_eq_sum (as : List α) : sumBlock as = as.sum := by
  fun_cases sumBlock with
  | case1 a₀ a₁ a₂ a₃ a₄ a₅ a₆ a₇ rest =>
    rw [sumEights_eq_sum]
    simp only [List.sum_cons]
    abel
  | case2 few h => exact List.sum_eq_foldl.symm

lemma sumPairwise_eq_sum (as : List α) : sumPairwise as = as.sum := by
  fun_induction sumPairwise with
  | case1 as h => exact sumBlock_eq_sum as
  | case2 as h half ih₁ ih₂ => rw [ih₁, ih₂, List.sum_take_add_sum_drop]

end Sums

namespace Mat

/-- What a stored matrix is read as. -/
def toMatrix (A : Mat α m n) : Matrix (Fin m) (Fin n) α := of A.get

/-- What a stored column is read as. -/
def toVec (x : Mat α n 1) : Fin n → α := fun i => x.get i ⟨0, Nat.one_pos⟩

@[simp] lemma toMatrix_apply (A : Mat α m n) (i : Fin m) (j : Fin n) :
    A.toMatrix i j = A.get i j := rfl

@[simp] lemma toVec_apply (x : Mat α n 1) (i : Fin n) : x.toVec i = x.get i 0 := rfl

lemma toMatrix_injective : Function.Injective (toMatrix : Mat α m n → _) := by
  intro A B h
  ext i j
  exact congrFun₂ h i j

lemma toVec_injective : Function.Injective (toVec : Mat α n 1 → _) := by
  intro x y h
  ext i j
  rw [Subsingleton.elim j 0]
  exact congrFun h i

/-- Every vector is a stored column. -/
lemma exists_toVec_eq (v : Fin n → α) : ∃ x : Mat α n 1, x.toVec = v :=
  ⟨ofFn fun i _ => v i, by ext; simp⟩

@[simp] lemma toMatrix_transpose (A : Mat α m n) : A.transpose.toMatrix = A.toMatrixᵀ := by
  ext; simp

/-! ### Operations -/

section Operations

variable [CommRing α]

@[simp] lemma toMatrix_identity : (identity : Mat α n n).toMatrix = 1 := by
  ext i j
  simp [Matrix.one_apply]

@[simp] lemma toMatrix_add (A B : Mat α m n) : (A + B).toMatrix = A.toMatrix + B.toMatrix := by
  ext; simp

@[simp] lemma toMatrix_sub (A B : Mat α m n) : (A - B).toMatrix = A.toMatrix - B.toMatrix := by
  ext; simp

@[simp] lemma toMatrix_scale (A : Mat α m n) (c : α) : (A.scale c).toMatrix = c • A.toMatrix := by
  ext i j
  simp [mul_comm]

@[simp] lemma toMatrix_mul (A : Mat α m k) (B : Mat α k n) :
    (A * B).toMatrix = A.toMatrix * B.toMatrix := by
  ext i j
  simp [Matrix.mul_apply, sumFin_eq_sum]

@[simp] lemma toVec_add (x y : Mat α n 1) : (x + y).toVec = x.toVec + y.toVec := by
  ext; simp

@[simp] lemma toVec_sub (x y : Mat α n 1) : (x - y).toVec = x.toVec - y.toVec := by
  ext; simp

@[simp] lemma toVec_neg (x : Mat α n 1) : (-x).toVec = -x.toVec := by
  ext; simp

@[simp] lemma toVec_scale (x : Mat α n 1) (c : α) : (x.scale c).toVec = c • x.toVec := by
  ext i
  simp [mul_comm]

@[simp] lemma toVec_mul (A : Mat α m n) (x : Mat α n 1) :
    (A * x).toVec = A.toMatrix *ᵥ x.toVec := by
  ext i
  simp [Matrix.mulVec, dotProduct, sumFin_eq_sum]

end Operations

/-! ### Entries -/

lemma row_eq_map (A : Mat α m n) (i : Fin m) :
    A.row i = (List.finRange n).map fun j => A.get i j := by
  apply List.ext_getElem
  · simp [row]
  · intro j _ _
    simp [row, get]

lemma entries_eq_flatMap (A : Mat α m n) :
    A.entries = (List.finRange m).flatMap fun i => (List.finRange n).map fun j => A.get i j := by
  have h : A.rows.toList = (List.finRange m).map fun i => A.rows[i] := by
    apply List.ext_getElem
    · simp
    · intro i _ _
      simp
  rw [entries, h, List.flatMap_map]
  exact congrArg (List.flatMap · (List.finRange m)) (funext A.row_eq_map)

lemma mem_entries_iff {A : Mat α m n} {a : α} : a ∈ A.entries ↔ ∃ i j, A.get i j = a := by
  simp [entries_eq_flatMap]

lemma forall_mem_entries_iff {A : Mat α m n} {P : α → Prop} :
    (∀ a ∈ A.entries, P a) ↔ ∀ i j, P (A.get i j) := by
  constructor
  · exact fun h i j => h _ (mem_entries_iff.mpr ⟨i, j, rfl⟩)
  · intro h a ha
    obtain ⟨i, j, rfl⟩ := mem_entries_iff.mp ha
    exact h i j

lemma normSquared_eq_sum [CommRing α] (A : Mat α m n) :
    A.normSquared = ∑ i, ∑ j, A.get i j * A.get i j := by
  rw [normSquared, sumPairwise_eq_sum, entries_eq_flatMap, List.map_flatMap, List.flatMap_def,
    List.sum_flatten, Fin.sum_univ_def]
  simp only [List.map_map, Fin.sum_univ_def]
  rfl

/-- The squared norm of a column is its product with itself. -/
lemma normSquared_eq_dotProduct [CommRing α] (x : Mat α n 1) :
    x.normSquared = x.toVec ⬝ᵥ x.toVec := by
  simp [normSquared_eq_sum, dotProduct]

end Mat

end Workforce
