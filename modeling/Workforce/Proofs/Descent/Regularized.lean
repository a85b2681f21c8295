import Workforce.Proofs.Descent.LeastSquares

/-!
# Damped linear least squares

A solution of the damped normal equations of residuals `f` with Jacobian `J` minimises the squared
residual of `f + J y` plus the damped squared length of `y`: away from a solution this sum grows by
the same quadratic form with the residuals left out. A regular normal matrix makes the minimiser
unique. Comparing minimisers, more damping gives shorter solutions with larger residuals.
-/

namespace Workforce

open Matrix

variable {K : Type} [Field K] {m n : ℕ}

/-- The squared residual of the linearised problem at `y`, and the squared length of `y` damped. -/
def dampedMisfit (J : Matrix (Fin m) (Fin n) K) (f : Fin m → K) (β : K) (y : Fin n → K) : K :=
  (f + J *ᵥ y) ⬝ᵥ (f + J *ᵥ y) + β * (y ⬝ᵥ y)

/-- The vector `d` solves the damped normal equations of residuals `f` with Jacobian `J`. -/
def SolvesDamped (J : Matrix (Fin m) (Fin n) K) (f : Fin m → K) (β : K) (d : Fin n → K) : Prop :=
  (Jᵀ * J + β • 1) *ᵥ d = -(Jᵀ *ᵥ f)

variable {J : Matrix (Fin m) (Fin n) K} {f : Fin m → K} {β β₁ β₂ : K} {d d₁ d₂ v y : Fin n → K}

/-- The direction on a linear problem solves the damped normal equations of its residuals. -/
lemma dampedDirection_iff {A : Matrix (Fin m) (Fin n) K} {b : Fin m → K} {k : K} {x : Fin n → K} :
    DampedDirection A b k β x d ↔ SolvesDamped (k • A) (A *ᵥ x - b) β d := by
  rw [DampedDirection, SolvesDamped, gradient, transpose_smul, smul_mulVec, Matrix.smul_mul,
    Matrix.mul_smul, smul_smul, pow_two]

/-! ### The damped normal matrix as a quadratic form -/

lemma dampedNormal_mulVec : (Jᵀ * J + β • 1) *ᵥ v = Jᵀ *ᵥ (J *ᵥ v) + β • v := by
  rw [add_mulVec, smul_mulVec, one_mulVec, mulVec_mulVec]

lemma dotProduct_dampedNormal :
    d ⬝ᵥ ((Jᵀ * J + β • 1) *ᵥ v) = (J *ᵥ d) ⬝ᵥ (J *ᵥ v) + β * (d ⬝ᵥ v) := by
  rw [dampedNormal_mulVec, dotProduct_add, dotProduct_smul, smul_eq_mul, dotProduct_mulVec d,
    vecMul_transpose]

/-- From a solution of the normal equations on, the damped misfit grows by the quadratic form of the
normal matrix. -/
lemma SolvesDamped.dampedMisfit_add (h : SolvesDamped J f β d) :
    dampedMisfit J f β (d + v) = dampedMisfit J f β d + dampedMisfit J 0 β v := by
  have hlinear : (J *ᵥ v) ⬝ᵥ (J *ᵥ d) + β * (v ⬝ᵥ d) = -((J *ᵥ v) ⬝ᵥ f) := by
    rw [← dotProduct_dampedNormal, h, dotProduct_neg, dotProduct_mulVec, vecMul_transpose]
  simp only [dampedMisfit, mulVec_add, dotProduct_add, add_dotProduct, zero_dotProduct,
    dotProduct_zero, dotProduct_comm f (J *ᵥ v), dotProduct_comm f (J *ᵥ d),
    dotProduct_comm (J *ᵥ d) (J *ᵥ v), dotProduct_comm d v]
  linear_combination 2 * hlinear

section Order

variable [LinearOrder K] [IsStrictOrderedRing K]

lemma dampedMisfit_nonneg (hβ : 0 ≤ β) : 0 ≤ dampedMisfit J f β v :=
  add_nonneg (dotProduct_self_nonneg _) (mul_nonneg hβ (dotProduct_self_nonneg v))

/-- The quadratic form of a regular damped normal matrix is positive. -/
lemma dampedMisfit_zero_pos (hβ : 0 ≤ β) (hD : IsUnit (Jᵀ * J + β • 1)) (hv : v ≠ 0) :
    0 < dampedMisfit J 0 β v := by
  refine lt_of_le_of_ne (dampedMisfit_nonneg hβ) fun hzero => hv ?_
  rw [dampedMisfit, zero_add] at hzero
  obtain ⟨hJ, hβv⟩ := mulVec_eq_zero_and_smul_eq_zero hβ hzero.symm
  apply mulVec_injective_iff_isUnit.mpr hD
  rw [dampedNormal_mulVec, hJ, hβv, mulVec_zero, mulVec_zero, add_zero]

/-- A damped normal matrix is regular. -/
lemma isUnit_dampedNormal (hβ : 0 < β) : IsUnit (Jᵀ * J + β • 1) := by
  refine mulVec_injective_iff_isUnit.mp
    ((injective_iff_map_eq_zero (Jᵀ * J + β • 1).mulVecLin).mpr fun v hv => ?_)
  have hform : (J *ᵥ v) ⬝ᵥ (J *ᵥ v) + β * (v ⬝ᵥ v) = 0 := by
    rw [← dotProduct_dampedNormal, ← mulVecLin_apply, hv, dotProduct_zero]
  obtain ⟨-, hβv⟩ := mulVec_eq_zero_and_smul_eq_zero hβ.le hform
  exact (smul_eq_zero.mp hβv).resolve_left hβ.ne'

/-- More damping keeps a normal matrix regular. -/
lemma isUnit_dampedNormal_of_le (hβ : 0 ≤ β₁) (hle : β₁ ≤ β₂) (hD : IsUnit (Jᵀ * J + β₁ • 1)) :
    IsUnit (Jᵀ * J + β₂ • 1) := by
  rcases hle.eq_or_lt with rfl | hlt
  · exact hD
  · exact isUnit_dampedNormal (hβ.trans_lt hlt)

namespace SolvesDamped

/-- A solution of the damped normal equations minimises the damped misfit. -/
lemma dampedMisfit_le (h : SolvesDamped J f β d) (hβ : 0 ≤ β) :
    dampedMisfit J f β d ≤ dampedMisfit J f β y := by
  rw [← add_sub_cancel d y, h.dampedMisfit_add]
  exact le_add_of_nonneg_right (dampedMisfit_nonneg hβ)

/-- It is the only minimiser if the normal matrix is regular. -/
theorem dampedMisfit_lt (h : SolvesDamped J f β d) (hβ : 0 ≤ β) (hD : IsUnit (Jᵀ * J + β • 1))
    (hy : y ≠ d) : dampedMisfit J f β d < dampedMisfit J f β y := by
  rw [← add_sub_cancel d y, h.dampedMisfit_add]
  exact lt_add_of_pos_right _ (dampedMisfit_zero_pos hβ hD (sub_ne_zero.mpr hy))

/-- Of two solutions the one with more damping is not longer. -/
theorem dotProduct_le (h₁ : SolvesDamped J f β₁ d₁) (h₂ : SolvesDamped J f β₂ d₂) (hβ : 0 ≤ β₁)
    (hle : β₁ ≤ β₂) (hD : IsUnit (Jᵀ * J + β₁ • 1)) : d₂ ⬝ᵥ d₂ ≤ d₁ ⬝ᵥ d₁ := by
  rcases hle.eq_or_lt with rfl | hlt
  · obtain rfl : d₁ = d₂ := mulVec_injective_iff_isUnit.mpr hD (h₁.trans h₂.symm)
    exact le_rfl
  · -- each solution is compared with the other one as a competitor
    have hfirst := h₁.dampedMisfit_le (y := d₂) hβ
    have hsecond := h₂.dampedMisfit_le (y := d₁) (hβ.trans hle)
    simp only [dampedMisfit] at hfirst hsecond
    have hgap : (β₂ - β₁) * (d₂ ⬝ᵥ d₂) ≤ (β₂ - β₁) * (d₁ ⬝ᵥ d₁) := by linarith
    exact le_of_mul_le_mul_left hgap (sub_pos.mpr hlt)

/-- Of two solutions the one with more damping does not have the smaller residual. -/
theorem residual_le (h₁ : SolvesDamped J f β₁ d₁) (h₂ : SolvesDamped J f β₂ d₂) (hβ : 0 ≤ β₁)
    (hle : β₁ ≤ β₂) (hD : IsUnit (Jᵀ * J + β₁ • 1)) :
    (f + J *ᵥ d₁) ⬝ᵥ (f + J *ᵥ d₁) ≤ (f + J *ᵥ d₂) ⬝ᵥ (f + J *ᵥ d₂) := by
  have hlength := mul_le_mul_of_nonneg_left (h₁.dotProduct_le h₂ hβ hle hD) hβ
  have hfirst := h₁.dampedMisfit_le (y := d₂) hβ
  simp only [dampedMisfit] at hfirst
  linarith

end SolvesDamped

end Order

end Workforce
