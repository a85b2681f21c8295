import Mathlib.Data.Int.Log
import Mathlib.Data.Rat.Floor
import Workforce.Inverse.Basic
import Workforce.Proofs.Inverse.Elimination
import Workforce.Proofs.Inverse.Equilibration

/-!
# Exact inverters

An inverter is exact when what it returns is an inverse and when it refuses singular matrices only.
Equilibration followed by elimination is one in exact arithmetic (`invertWith_eliminate_eq_ok`,
`invertWith_eliminate_eq_error`), which gives the rational numbers theirs. So a rational matrix is
inverted if its determinant is not zero and refused if it is (`invertWith_eliminate_decides`).
-/

namespace Workforce

open Matrix

variable {K : Type} [Field K] {n : ℕ}

/-- An inverter that is exact, and for which a matrix with entries is refused as singular only when
it is. -/
class ExactInverter (K : Type) [Field K] [Inverter K] : Prop where
  mul_eq_one : ∀ {n : ℕ} {D X : Mat K n n}, D.invert = .ok X → D.toMatrix * X.toMatrix = 1
  isSingular_of_error : ∀ {n : ℕ} {D : Mat K n n} {e : InversionError}, 0 < n →
    D.invert = .error e → e.isSingular = true ∧ ¬ IsUnit D.toMatrix

/-- A regular matrix with entries is inverted. -/
lemma exists_invert_eq_ok [Inverter K] [ExactInverter K] {D : Mat K n n} (hn : 0 < n)
    (hD : IsUnit D.toMatrix) : ∃ X, D.invert = .ok X ∧ D.toMatrix * X.toMatrix = 1 := by
  cases h : D.invert with
  | error e => exact absurd hD (ExactInverter.isSingular_of_error hn h).2
  | ok X => exact ⟨X, rfl, ExactInverter.mul_eq_one h⟩

/-- What a damped normal matrix is read as. -/
lemma Mat.toMatrix_normal {m : ℕ} (J : Mat K m n) (β : K) :
    (J.normal β).toMatrix = J.toMatrixᵀ * J.toMatrix + β • 1 := by
  simp [Mat.normal]

/-! ### Equilibration and elimination -/

section Elimination

lemma isUnit_diagonal_get {v : Vector K n} (h : ∀ i, v.get i ≠ 0) : IsUnit (diagonal v.get) := by
  rw [Matrix.isUnit_iff_isUnit_det, Matrix.det_diagonal, isUnit_iff_ne_zero]
  exact Finset.prod_ne_zero_iff.mpr fun i _ => h i

variable [Precision K] [ExactPrecision K]

lemma isFinite_eq_true {m : ℕ} (A : Mat K m n) : A.isFinite = true := by
  simp [Mat.isFinite, ExactPrecision.isFinite_eq_true]

variable [LinearOrder K] {D X : Mat K n n} {e : InversionError}

/-- Where all numbers are finite, it is only the scaled system that decides. -/
lemma invertWith_of_equilibrate {solve : Mat K n n → Except SystemError (Mat K n n)}
    {E : Equilibrated K n} (hn : 0 < n) (h : D.equilibrate = .ok E) :
    D.invertWith solve =
      match solve E.scaled with
      | .error e => .error (.unsolved n e)
      | .ok X => .ok ((X.scaleRows E.columnFactors).scaleColumns E.rowFactors) := by
  rw [Mat.invertWith_of_ok hn h, if_pos (isFinite_eq_true _)]
  cases solve E.scaled with
  | error e => rfl
  | ok X => exact if_pos (isFinite_eq_true _)

variable [IsStrictOrderedRing K]

/-- What equilibration and elimination return is an inverse. -/
theorem invertWith_eliminate_eq_ok (h : D.invertWith Mat.eliminate = .ok X) :
    D.toMatrix * X.toMatrix = 1 := by
  rcases Nat.eq_zero_or_pos n with rfl | hn
  · exact Subsingleton.elim _ _
  cases hE : D.equilibrate with
  | error line => cases h.symm.trans (Mat.invertWith_of_error hn hE)
  | ok E =>
    rw [invertWith_of_equilibrate hn hE] at h
    cases hY : E.scaled.eliminate with
    | error e =>
      rw [hY] at h
      cases h
    | ok Y =>
      rw [hY] at h
      obtain ⟨hscaled, hr, hc⟩ := Mat.equilibrate_eq_ok hE
      have hsolved := Mat.mul_of_eliminate_eq_ok hY
      cases h
      -- the factors of rows are on the left here and on the right in the inverse
      have hleft : diagonal E.rowFactors.get *
          (D.toMatrix * (diagonal E.columnFactors.get * Y.toMatrix)) = 1 := by
        rw [← hsolved, hscaled]
        simp only [Matrix.mul_assoc]
      rw [Mat.toMatrix_scaleColumns, Mat.toMatrix_scaleRows, ← Matrix.mul_assoc]
      exact mul_eq_one_comm.mp hleft

/-- Equilibration and elimination refuse singular matrices only. -/
theorem invertWith_eliminate_eq_error (hn : 0 < n) (h : D.invertWith Mat.eliminate = .error e) :
    e.isSingular = true ∧ ¬ IsUnit D.toMatrix := by
  cases hE : D.equilibrate with
  | error line =>
    cases h.symm.trans (Mat.invertWith_of_error hn hE)
    refine ⟨by cases line <;> rfl, Mat.not_isUnit_of_equilibrate_eq_error hE⟩
  | ok E =>
    rw [invertWith_of_equilibrate hn hE] at h
    cases herror : E.scaled.eliminate with
    | ok X =>
      rw [herror] at h
      cases h
    | error e =>
      rw [herror] at h
      cases h
      refine ⟨rfl, fun hD => ?_⟩
      obtain ⟨hscaled, hr, hc⟩ := Mat.equilibrate_eq_ok hE
      obtain ⟨v, hv, hzero⟩ := Mat.exists_mulVec_eq_zero_of_eliminate_eq_error herror
      -- a regular matrix would stay regular when it is scaled, and its columns independent
      have hunit : IsUnit E.scaled.toMatrix := by
        rw [hscaled]
        exact ((isUnit_diagonal_get hr).mul hD).mul (isUnit_diagonal_get hc)
      exact hv (Matrix.mulVec_injective_iff_isUnit.mpr hunit (by simpa using hzero))

end Elimination

/-! ### Rational numbers -/

/-- The normalizer of a rational number is the power of two given by the floor of its logarithm. -/
instance : Precision ℚ where
  isFinite _ := true
  normalizer a := 2 ^ (-Int.log 2 a)
  epsilon := 0
  pivotThreshold := 0

instance : ExactPrecision ℚ where
  isFinite_eq_true _ := rfl
  normalizer_ne_zero _ := zpow_ne_zero _ two_ne_zero

instance : LinearSolver ℚ := ⟨Mat.eliminate⟩

instance : ExactInverter ℚ where
  mul_eq_one := invertWith_eliminate_eq_ok
  isSingular_of_error := invertWith_eliminate_eq_error

/-- Equilibration and elimination find the inverse of every matrix with entries whose determinant is
not zero, on both sides, and they refuse every other one as singular. -/
theorem invertWith_eliminate_decides (D : Mat ℚ n n) (hn : 0 < n) :
    (D.toMatrix.det ≠ 0 → ∃ X, D.invertWith Mat.eliminate = .ok X ∧ D * X = Mat.identity ∧
      X * D = Mat.identity) ∧
    (D.toMatrix.det = 0 →
      ∃ e, D.invertWith Mat.eliminate = .error e ∧ e.isSingular = true) := by
  constructor
  · intro hdet
    have hD : IsUnit D.toMatrix := (isUnit_iff_isUnit_det _).mpr hdet.isUnit
    cases h : D.invertWith Mat.eliminate with
    | error e => exact absurd hD (invertWith_eliminate_eq_error hn h).2
    | ok X =>
      have hright := invertWith_eliminate_eq_ok h
      refine ⟨X, rfl, Mat.toMatrix_injective ?_, Mat.toMatrix_injective ?_⟩
      · rw [Mat.toMatrix_mul, hright, Mat.toMatrix_identity]
      · rw [Mat.toMatrix_mul, mul_eq_one_comm.mp hright, Mat.toMatrix_identity]
  · intro hdet
    cases h : D.invertWith Mat.eliminate with
    | error e => exact ⟨e, rfl, (invertWith_eliminate_eq_error hn h).1⟩
    | ok X =>
      have hunit := isUnit_det_of_right_inverse (invertWith_eliminate_eq_ok h)
      exact absurd hdet hunit.ne_zero

/-- A regular matrix whose first pivot is zero until the rows change places. -/
def crossed : Mat ℚ 3 3 := ⟨#v[#v[0, 3, 1], #v[1 / 100, 5, 0], #v[0, 700, 0]]⟩

/-- A singular matrix without a line of zeros. -/
def dependent : Mat ℚ 3 3 := ⟨#v[#v[1, 2, 3], #v[4, 5, 6], #v[5, 7, 9]]⟩

/-- The first matrix has an inverse on both sides, the second one is refused. -/
theorem invertWith_eliminate_decides_crossed :
    (∃ X, crossed.invertWith Mat.eliminate = .ok X ∧ crossed * X = Mat.identity ∧
      X * crossed = Mat.identity) ∧
    ∃ e, dependent.invertWith Mat.eliminate = .error e ∧ e.isSingular = true := by
  have hcrossed : crossed.toMatrix.det ≠ 0 := by
    rw [det_fin_three]
    decide +kernel
  have hdependent : dependent.toMatrix.det = 0 := by
    rw [det_fin_three]
    decide +kernel
  exact ⟨(invertWith_eliminate_decides crossed (by decide)).1 hcrossed,
    (invertWith_eliminate_decides dependent (by decide)).2 hdependent⟩

end Workforce
