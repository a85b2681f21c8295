import Mathlib.LinearAlgebra.Matrix.NonsingularInverse
import Workforce.Proofs.Inverse.Stages
import Workforce.Proofs.Number.Exact

/-!
# Equilibration in exact arithmetic

Where all numbers are finite and normalizers can be divided by, equilibration multiplies a matrix
by two regular diagonal matrices (`equilibrate_eq_ok`). It fails on matrices with a line of zeros
only (`not_isUnit_of_equilibrate_eq_error`).
-/

namespace Workforce

open Matrix

variable {K : Type} {m n : ℕ}

variable [Field K]

/-! ### Scaling -/

namespace Mat

lemma toMatrix_scaleRows (A : Mat K m n) (r : Vector K m) :
    (A.scaleRows r).toMatrix = diagonal r.get * A.toMatrix := by
  ext i j
  simp [Matrix.diagonal_mul, mul_comm]

lemma toMatrix_scaleColumns (A : Mat K m n) (c : Vector K n) :
    (A.scaleColumns c).toMatrix = A.toMatrix * diagonal c.get := by
  ext i j
  simp [Matrix.mul_diagonal]

end Mat

/-- Precision of exact numbers: all of them are finite, and normalizers can be divided by. -/
class ExactPrecision (K : Type) [Zero K] [Precision K] : Prop where
  isFinite_eq_true : ∀ a : K, Precision.isFinite a = true
  normalizer_ne_zero : ∀ a : K, Precision.normalizer a ≠ 0

lemma get_map_normalizer_ne_zero [Precision K] [ExactPrecision K] (peaks : Vector K n)
    (i : Fin n) : (peaks.map Precision.normalizer).get i ≠ 0 := by
  rw [get_vectorMap]
  exact ExactPrecision.normalizer_ne_zero _

/-! ### Lines of zeros -/

variable [LinearOrder K]

lemma get_eq_zero_of_zeroLine? {peaks : Vector K n} {i : Fin n} (h : zeroLine? peaks = some i) :
    peaks.get i = 0 := by
  obtain ⟨-, himproper | ⟨-, hzero⟩⟩ := zeroLine?_eq_some_iff.mp h
  · exact absurd (isProper_eq_true _) (Bool.eq_false_iff.mp himproper.1)
  · simpa using hzero.1

namespace Mat

/-- Equilibration multiplies rows and columns by factors that can be divided by. -/
lemma equilibrate_eq_ok [Precision K] [ExactPrecision K] {D : Mat K n n} {E : Equilibrated K n}
    (h : D.equilibrate = .ok E) :
    E.scaled.toMatrix = diagonal E.rowFactors.get * D.toMatrix * diagonal E.columnFactors.get ∧
      (∀ i, E.rowFactors.get i ≠ 0) ∧ ∀ j, E.columnFactors.get j ≠ 0 := by
  obtain ⟨-, -, rfl⟩ := equilibrate_eq_ok_iff.mp h
  refine ⟨?_, fun i => ?_, fun j => ?_⟩
  · simp only [equilibrated, halfScaled]
    rw [toMatrix_scaleColumns, toMatrix_scaleRows]
  · exact get_map_normalizer_ne_zero _ i
  · exact get_map_normalizer_ne_zero _ j

variable [IsStrictOrderedRing K]

lemma rowPeaks_eq_zero_iff (A : Mat K m n) (i : Fin m) :
    A.rowPeaks.get i = 0 ↔ ∀ j, A.get i j = 0 := by
  rw [rowPeaks, get_vectorOfFn, peak_magnitude_eq_zero_iff, row_eq_map]
  simp

/-- A matrix that is not equilibrated has a line of zeros. -/
lemma not_isUnit_of_equilibrate_eq_error [Precision K] [ExactPrecision K] {D : Mat K n n}
    {line : ZeroLine} (h : D.equilibrate = .error line) : ¬ IsUnit D.toMatrix := by
  rw [Matrix.isUnit_iff_isUnit_det, isUnit_iff_ne_zero, not_not]
  obtain ⟨i, -, hi⟩ | ⟨j, -, -, hj⟩ := cases_of_equilibrate_eq_error h
  · exact Matrix.det_eq_zero_of_row_eq_zero i
      ((D.rowPeaks_eq_zero_iff i).mp (get_eq_zero_of_zeroLine? hi))
  · refine Matrix.det_eq_zero_of_column_eq_zero j fun i => ?_
    have hzero := (rowPeaks_eq_zero_iff _ j).mp (get_eq_zero_of_zeroLine? hj) i
    rw [halfScaled, get_transpose, get_scaleRows] at hzero
    exact (mul_eq_zero.mp hzero).resolve_right (get_map_normalizer_ne_zero _ i)

end Mat

end Workforce
