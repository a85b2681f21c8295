import Workforce.Inverse.Equilibration
import Workforce.Proofs.Flow.Series
import Workforce.Proofs.Mat.Reordering

/-!
# Symmetries of the flow inverse

The flow inverse is made of sums over columns and rows, so in exact arithmetic it takes no notice of
their order. It measures the flow that leaves a row by the entries of the row, so it does not depend
on the unit in which they are given: what one row loses in a smaller share, the others regain when
they absorb it.
-/

namespace Workforce

open Matrix

variable {m n : ℕ}

namespace Flow

variable {K : Type} [Field K] [LinearOrder K] (A : Mat K m n)

/-! ### Order -/

section Order

variable (σ : Equiv.Perm (Fin m)) (τ : Equiv.Perm (Fin n))

lemma outflow_reordered (r : Fin m) : outflow (A.reordered σ τ) r = outflow A (σ r) := by
  simp only [outflow, Mat.get_reordered, Finset.sum_filter]
  exact Equiv.sum_comp τ fun c => if 0 < A.get (σ r) c then A.get (σ r) c else 0

lemma shares_reordered : shares (A.reordered σ τ) = (shares A).submatrix τ σ := by
  ext c r
  simp only [shares_apply, outflow_reordered, Mat.get_reordered, Matrix.submatrix_apply]

lemma feedback_reordered : feedback (A.reordered σ τ) = (feedback A).submatrix σ σ := by
  ext q r
  simp only [feedback_apply, outflow_reordered, Mat.get_reordered, Matrix.submatrix_apply,
    Finset.sum_filter]
  exact Equiv.sum_comp τ fun c =>
    if 0 < A.get (σ r) c ∧ A.get (σ q) c < 0 then -A.get (σ q) c / outflow A (σ r) else 0

lemma series_reordered (levels : ℕ) :
    series (A.reordered σ τ) levels = (series A levels).submatrix τ σ := by
  induction levels with
  | zero => rw [series_zero, series_zero, shares_reordered]
  | succ levels ih =>
    rw [series_succ, series_succ, ih, shares_reordered, feedback_reordered,
      Matrix.submatrix_mul_equiv, Matrix.submatrix_add]
    rfl

end Order

/-! ### Units -/

section Units

variable [IsStrictOrderedRing K] {A} {d : Vector K m}

lemma outflow_scaleRows {r : Fin m} (hd : 0 < d.get r) :
    outflow (A.scaleRows d) r = outflow A r * d.get r := by
  simp only [outflow, Mat.get_scaleRows, mul_pos_iff_of_pos_right hd, Finset.sum_mul]

lemma shares_scaleRows {r : Fin m} (hd : 0 < d.get r) (c : Fin n) :
    shares (A.scaleRows d) c r = shares A c r / d.get r := by
  simp only [shares_apply, outflow_scaleRows hd, Mat.get_scaleRows, mul_pos_iff_of_pos_right hd]
  rw [ite_div, zero_div, div_div]

/-- A row that is scaled absorbs more, and what is scaled feeds back less. -/
lemma feedback_scaleRows (hd : ∀ i, 0 < d.get i) (q r : Fin m) :
    feedback (A.scaleRows d) q r = d.get q * feedback A q r / d.get r := by
  have hneg (c : Fin n) : A.get q c * d.get q < 0 ↔ A.get q c < 0 := by
    rw [← not_le, mul_nonneg_iff_of_pos_right (hd q), not_le]
  simp only [feedback_apply, outflow_scaleRows (hd r), Mat.get_scaleRows,
    mul_pos_iff_of_pos_right (hd r), hneg]
  rw [Finset.mul_sum, Finset.sum_div]
  refine Finset.sum_congr rfl fun c _ => ?_
  rw [← div_div, ← neg_mul, mul_comm, mul_div_assoc]

lemma series_scaleRows (hd : ∀ i, 0 < d.get i) (levels : ℕ) (c : Fin n) (r : Fin m) :
    series (A.scaleRows d) levels c r = series A levels c r / d.get r := by
  induction levels generalizing r with
  | zero => rw [series_zero, series_zero, shares_scaleRows (hd r)]
  | succ levels ih =>
    rw [series_succ, series_succ, Matrix.add_apply, Matrix.add_apply, add_div,
      shares_scaleRows (hd r), Matrix.mul_apply, Matrix.mul_apply, Finset.sum_div]
    congr 1
    refine Finset.sum_congr rfl fun q _ => ?_
    -- the factor of the row in between cancels
    rw [ih, feedback_scaleRows hd, ← mul_div_assoc, ← mul_assoc, div_mul_cancel₀ _ (hd q).ne']

end Units

variable [IsStrictOrderedRing K]

/-- Rows in another order give columns in this order, and columns in another order give rows in it.
Rows that are multiplied by positive factors give columns that are divided by them. -/
theorem flowInverse_symmetric (A : Mat K m n) (levels : ℕ) :
    (∀ σ, (A.reordered σ 1).flowInverse levels = (A.flowInverse levels).reordered 1 σ) ∧
    (∀ τ, (A.reordered 1 τ).flowInverse levels = (A.flowInverse levels).reordered τ 1) ∧
    ∀ d : Vector K m, (∀ i, 0 < d.get i) → ∀ c i,
      ((A.scaleRows d).flowInverse levels).get c i = (A.flowInverse levels).get c i / d.get i := by
  refine ⟨fun σ => Mat.toMatrix_injective ?_, fun τ => Mat.toMatrix_injective ?_,
    fun d hd c i => ?_⟩
  · rw [toMatrix_flowInverse, series_reordered, Mat.toMatrix_reordered, toMatrix_flowInverse]
  · rw [toMatrix_flowInverse, series_reordered, Mat.toMatrix_reordered, toMatrix_flowInverse]
  · rw [← Mat.toMatrix_apply, ← Mat.toMatrix_apply, toMatrix_flowInverse, toMatrix_flowInverse,
      series_scaleRows hd]

/-- The rows of `drained`, given in halves, thirds and quarters. -/
theorem flowInverse_symmetric_drained :
    (drained.scaleRows #v[2, 3, 4]).flowInverse 2 =
      ⟨#v[#v[5 / 8, 1 / 6, 0], #v[1 / 4, 5 / 12, 0]]⟩ ∧
    ∀ c i, ((drained.scaleRows #v[2, 3, 4]).flowInverse 2).get c i =
      (drained.flowInverse 2).get c i / (#v[2, 3, 4] : Vector ℚ 3).get i := by
  obtain ⟨-, -, hunits⟩ := flowInverse_symmetric drained 2
  exact ⟨by cbv, hunits #v[2, 3, 4] (by decide)⟩

end Flow

end Workforce
