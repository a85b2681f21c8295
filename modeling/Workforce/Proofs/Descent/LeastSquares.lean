import Mathlib.LinearAlgebra.Matrix.Rank
import Mathlib.Tactic.Linarith
import Mathlib.Tactic.LinearCombination
import Mathlib.Tactic.Positivity

/-!
# Linear least squares along a line

The squared residual of `A x - b` is quadratic along every line. Along the damped direction its
linear part is so negative that it prevails over the quadratic one for all scales below `2 k`,
where `k` is the factor that the Jacobian carries.
-/

namespace Workforce

open Matrix

variable {K : Type} [Field K] {m n : ℕ} (A : Matrix (Fin m) (Fin n) K) (b : Fin m → K)

/-- The squared residual at `x`. -/
def misfit (x : Fin n → K) : K := (A *ᵥ x - b) ⬝ᵥ (A *ᵥ x - b)

/-- Half the gradient of the squared residual at `x`. -/
def gradient (x : Fin n → K) : Fin n → K := Aᵀ *ᵥ (A *ᵥ x - b)

/-- The direction `d` solves the damped normal equations at `x`, the Jacobian being `k A`. -/
def DampedDirection (k β : K) (x d : Fin n → K) : Prop :=
  (k ^ 2 • (Aᵀ * A) + β • 1) *ᵥ d = -(k • gradient A b x)

variable {A b} {k β a : K} {x d : Fin n → K}

lemma misfit_add_smul :
    misfit A b (x + a • d) =
      misfit A b x + 2 * a * (gradient A b x ⬝ᵥ d) + a ^ 2 * ((A *ᵥ d) ⬝ᵥ (A *ᵥ d)) := by
  have hline : A *ᵥ (x + a • d) - b = (A *ᵥ x - b) + a • (A *ᵥ d) := by
    rw [mulVec_add, mulVec_smul]
    abel
  have hslope : gradient A b x ⬝ᵥ d = (A *ᵥ x - b) ⬝ᵥ (A *ᵥ d) := by
    rw [gradient, mulVec_transpose, dotProduct_mulVec]
  rw [misfit, misfit, hline, hslope]
  simp only [add_dotProduct, dotProduct_add, smul_dotProduct, dotProduct_smul, smul_eq_mul,
    dotProduct_comm (A *ᵥ d) (A *ᵥ x - b)]
  ring

lemma dotProduct_self_nonneg [LinearOrder K] [IsStrictOrderedRing K] (v : Fin n → K) :
    0 ≤ v ⬝ᵥ v :=
  Finset.sum_nonneg fun i _ => mul_self_nonneg (v i)

/-- A sum of a squared length and a damped one vanishes only where both lengths do. -/
lemma mulVec_eq_zero_and_smul_eq_zero [LinearOrder K] [IsStrictOrderedRing K] (hβ : 0 ≤ β)
    (h : (A *ᵥ d) ⬝ᵥ (A *ᵥ d) + β * (d ⬝ᵥ d) = 0) : A *ᵥ d = 0 ∧ β • d = 0 := by
  rw [add_eq_zero_iff_of_nonneg (dotProduct_self_nonneg _)
    (mul_nonneg hβ (dotProduct_self_nonneg d))] at h
  refine ⟨dotProduct_self_eq_zero.mp h.1, smul_eq_zero.mpr ?_⟩
  exact (mul_eq_zero.mp h.2).imp_right dotProduct_self_eq_zero.mp

namespace DampedDirection

lemma mulVec_eq (h : DampedDirection A b k β x d) :
    k ^ 2 • (Aᵀ *ᵥ (A *ᵥ d)) + β • d = -(k • gradient A b x) := by
  rw [← h, add_mulVec, smul_mulVec, smul_mulVec, one_mulVec, mulVec_mulVec]

/-- The slope of the squared residual along the damped direction. -/
lemma slope_eq (h : DampedDirection A b k β x d) :
    k * (gradient A b x ⬝ᵥ d) = -(k ^ 2 * ((A *ᵥ d) ⬝ᵥ (A *ᵥ d)) + β * (d ⬝ᵥ d)) := by
  have hdot := congrArg (· ⬝ᵥ d) h.mulVec_eq
  simp only [add_dotProduct, smul_dotProduct, neg_dotProduct, smul_eq_mul, mulVec_transpose,
    ← dotProduct_mulVec] at hdot
  linear_combination hdot

/-- A regular normal matrix has one direction. -/
lemma unique {d' : Fin n → K} (h : DampedDirection A b k β x d) (h' : DampedDirection A b k β x d')
    (hD : IsUnit (k ^ 2 • (Aᵀ * A) + β • 1)) : d = d' :=
  mulVec_injective_iff_isUnit.mpr hD (h.trans h'.symm)

/-- Where the gradient vanishes, there is no damped direction but zero. -/
lemma eq_zero (h : DampedDirection A b k β x d) (hD : IsUnit (k ^ 2 • (Aᵀ * A) + β • 1))
    (hgradient : gradient A b x = 0) : d = 0 := by
  apply mulVec_injective_iff_isUnit.mpr hD
  rw [h, hgradient, smul_zero, neg_zero, mulVec_zero]

variable [LinearOrder K] [IsStrictOrderedRing K]

/-- Where the gradient does not vanish, the damped direction has a curvature or a length that
counts. -/
lemma curvature_pos (h : DampedDirection A b k β x d) (hk : 0 < k) (hβ : 0 ≤ β)
    (hgradient : gradient A b x ≠ 0) :
    0 < (A *ᵥ d) ⬝ᵥ (A *ᵥ d) ∨ 0 < β * (d ⬝ᵥ d) := by
  by_contra! hzero
  obtain ⟨hcurvature, hlength⟩ := hzero
  have hsum : (A *ᵥ d) ⬝ᵥ (A *ᵥ d) + β * (d ⬝ᵥ d) = 0 :=
    le_antisymm (add_nonpos hcurvature hlength)
      (add_nonneg (dotProduct_self_nonneg _) (mul_nonneg hβ (dotProduct_self_nonneg d)))
  obtain ⟨hA, hβd⟩ := mulVec_eq_zero_and_smul_eq_zero hβ hsum
  have hkg := h.mulVec_eq
  rw [hA, hβd, mulVec_zero, smul_zero, add_zero, eq_comm, neg_eq_zero] at hkg
  exact hgradient ((smul_eq_zero.mp hkg).resolve_left hk.ne')

/-- Where the gradient does not vanish, all scales below `2 k` decrease the squared residual. -/
theorem misfit_lt (h : DampedDirection A b k β x d) (hk : 0 < k) (hβ : 0 ≤ β)
    (hgradient : gradient A b x ≠ 0) (ha : 0 < a) (hak : a < 2 * k) :
    misfit A b (x + a • d) < misfit A b x := by
  have hchange : k * (misfit A b (x + a • d) - misfit A b x) =
      -(a * (k * (2 * k - a) * ((A *ᵥ d) ⬝ᵥ (A *ᵥ d)) + 2 * (β * (d ⬝ᵥ d)))) := by
    rw [misfit_add_smul]
    linear_combination 2 * a * h.slope_eq
  have hscale : 0 < k * (2 * k - a) := mul_pos hk (sub_pos.mpr hak)
  have hsum : 0 < k * (2 * k - a) * ((A *ᵥ d) ⬝ᵥ (A *ᵥ d)) + 2 * (β * (d ⬝ᵥ d)) := by
    rcases h.curvature_pos hk hβ hgradient with hcurvature | hlength
    · have hnonneg := mul_nonneg hβ (dotProduct_self_nonneg d)
      linarith [mul_pos hscale hcurvature]
    · have hnonneg := mul_nonneg hscale.le (dotProduct_self_nonneg (A *ᵥ d))
      linarith
  have hneg : k * (misfit A b (x + a • d) - misfit A b x) < 0 := by
    rw [hchange]
    exact neg_lt_zero.mpr (mul_pos ha hsum)
  exact sub_neg.mp (neg_of_mul_neg_right hneg hk.le)

end DampedDirection

/-! ### The solution -/

variable {z : Fin n → K}

/-- The matrix of the normal equations is regular when the columns are independent. -/
lemma isUnit_transpose_mul_self [LinearOrder K] [IsStrictOrderedRing K]
    (hA : LinearIndependent K A.col) : IsUnit (Aᵀ * A) := by
  have hker : LinearMap.ker (Aᵀ * A).mulVecLin = ⊥ := by
    rw [ker_mulVecLin_transpose_mul_self]
    exact LinearMap.ker_eq_bot.mpr (mulVec_injective_iff.mpr hA)
  exact mulVec_injective_iff_isUnit.mp (LinearMap.ker_eq_bot.mp hker)

/-- The gradient, seen from a solution of the normal equations. -/
lemma gradient_eq_mulVec_sub (hz : (Aᵀ * A) *ᵥ z = Aᵀ *ᵥ b) :
    gradient A b x = (Aᵀ * A) *ᵥ (x - z) := by
  rw [gradient, mulVec_sub, mulVec_sub, hz, mulVec_mulVec]

lemma gradient_eq_zero_iff (hA : IsUnit (Aᵀ * A)) (hz : (Aᵀ * A) *ᵥ z = Aᵀ *ᵥ b) :
    gradient A b x = 0 ↔ x = z := by
  rw [gradient_eq_mulVec_sub hz]
  constructor
  · intro h
    have hzero : x - z = 0 := mulVec_injective_iff_isUnit.mpr hA (by rw [h, mulVec_zero])
    exact sub_eq_zero.mp hzero
  · rintro rfl
    rw [sub_self, mulVec_zero]

/-- Without damping the direction points to the solution. -/
lemma DampedDirection.smul_eq (h : DampedDirection A b k 0 x d) (hk : k ≠ 0)
    (hA : IsUnit (Aᵀ * A)) (hz : (Aᵀ * A) *ᵥ z = Aᵀ *ᵥ b) : k • d = -(x - z) := by
  apply mulVec_injective_iff_isUnit.mpr hA
  apply smul_right_injective _ hk
  simp only
  rw [mulVec_smul, mulVec_neg, ← gradient_eq_mulVec_sub hz, smul_neg, ← h.mulVec_eq, zero_smul,
    add_zero, smul_smul, mulVec_mulVec, pow_two]

/-- A step of scale `a` without damping scales the distance to the solution by `1 - a / k`. -/
lemma DampedDirection.add_smul_sub (h : DampedDirection A b k 0 x d) (hk : k ≠ 0)
    (hA : IsUnit (Aᵀ * A)) (hz : (Aᵀ * A) *ᵥ z = Aᵀ *ᵥ b) :
    x + a • d - z = (1 - a / k) • (x - z) := by
  have hd : d = -(k⁻¹ • (x - z)) := by
    rw [← smul_neg, ← h.smul_eq hk hA hz, smul_smul, inv_mul_cancel₀ hk, one_smul]
  rw [hd, sub_smul, one_smul, smul_neg, smul_smul, div_eq_mul_inv]
  abel

end Workforce
