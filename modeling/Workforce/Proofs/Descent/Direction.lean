import Workforce.Proofs.Descent.LineSearch
import Workforce.Proofs.Descent.Regularized
import Workforce.Proofs.Mat.Laws

/-!
# The damped direction

A direction is the damped inverse of the Jacobian applied to the residuals, with the sign changed.
In exact arithmetic it solves the damped normal equations, so it is the best step for the linearised
problem with its length penalised (`direction_minimizes`), and it gets shorter with more damping
(`direction_shortens`). Both hold for every problem, at every point.
-/

namespace Workforce

open Matrix

namespace Problem

variable {m n : ℕ}

/-! ### When there is a direction -/

section Evaluation

variable {σ α : Type} [Zero α] [One α] [Add α] [Mul α] [Neg α] [Inverter α] [Steering σ α]
variable {p : Problem α} {x : Grid α} {J : Mat α m n} {f : Mat α m 1} {X : Mat α n n} {k : α}
variable {β : σ}

lemma direction_eq_ok (hβ : entryOf β = .ok k) (hJ : p.jacobian x = .ok ⟨J⟩)
    (hf : p.residual x = .ok ⟨f⟩) (hX : (J.normal k).invert = .ok X) :
    p.direction β x = .ok ⟨-(X * (J.transpose * f))⟩ := by
  simp [direction, hJ, hf, hβ, hX, Except.map, Except.mapError, checked, Grid.transpose, Grid.neg]

lemma direction_eq_error {e : InversionError} (hβ : entryOf β = .ok k)
    (hJ : p.jacobian x = .ok ⟨J⟩) (hX : (J.normal k).invert = .error e) :
    p.direction β x = .error (.inversion e) := by
  simp [direction, hJ, hβ, hX, Except.map, Except.mapError]

end Evaluation

/-! ### The linearised problem -/

variable {K : Type} [Field K] {p : Problem K} {x : Grid K} {J : Mat K m n} {f : Mat K m 1} {β : K}

lemma dampedMisfit_toVec (y : Mat K n 1) :
    dampedMisfit J.toMatrix f.toVec β y.toVec =
      (f + J * y).normSquared + β * y.normSquared := by
  rw [Mat.normSquared_eq_dotProduct, Mat.normSquared_eq_dotProduct, Mat.toVec_add, Mat.toVec_mul,
    dampedMisfit]

variable [Inverter K] [ExactInverter K]

/-- Where the damped normal matrix is regular, the direction is the damped inverse applied to the
residuals, and it solves the damped normal equations. -/
lemma exists_direction (hn : 0 < n) (hJ : p.jacobian x = .ok ⟨J⟩) (hf : p.residual x = .ok ⟨f⟩)
    (hD : IsUnit (J.toMatrixᵀ * J.toMatrix + β • 1)) :
    ∃ G : Mat K n m, J.dampedInverse β = .ok G ∧ p.direction β x = .ok ⟨-(G * f)⟩ ∧
      SolvesDamped J.toMatrix f.toVec β (-(G * f)).toVec := by
  rw [← Mat.toMatrix_normal] at hD
  obtain ⟨X, hX, hinverse⟩ := exists_invert_eq_ok hn hD
  refine ⟨X * J.transpose, ?_, ?_, ?_⟩
  · rw [Mat.dampedInverse, hX, ok_bind, pure_eq_ok]
  · rw [Mat.mul_assoc]
    exact direction_eq_ok rfl hJ hf hX
  · rw [Mat.mul_assoc, SolvesDamped, ← Mat.toMatrix_normal, Mat.toVec_neg, mulVec_neg,
      Mat.toVec_mul, mulVec_mulVec, hinverse, one_mulVec, Mat.toVec_mul, Mat.toMatrix_transpose]

variable [LinearOrder K] [IsStrictOrderedRing K]

/-- The direction at a point is the only minimiser of the squared residual of the linearised problem
plus the damped squared length, and it is the damped inverse of the Jacobian applied to the
residuals, with the sign changed. -/
theorem direction_minimizes (p : Problem K) (x : Grid K) {J : Mat K m n} {f : Mat K m 1} {β : K}
    (hn : 0 < n) (hβ : 0 ≤ β) (hJ : p.jacobian x = .ok ⟨J⟩) (hf : p.residual x = .ok ⟨f⟩)
    (hD : IsUnit (J.toMatrixᵀ * J.toMatrix + β • 1)) :
    ∃ (d : Mat K n 1) (G : Mat K n m), p.direction β x = .ok ⟨d⟩ ∧
      (∀ y : Mat K n 1, y ≠ d →
        (f + J * d).normSquared + β * d.normSquared <
          (f + J * y).normSquared + β * y.normSquared) ∧
      J.dampedInverse β = .ok G ∧ d = -(G * f) := by
  obtain ⟨G, hG, hd, hsolves⟩ := exists_direction hn hJ hf hD
  refine ⟨-(G * f), G, hd, fun y hy => ?_, hG, rfl⟩
  rw [← dampedMisfit_toVec, ← dampedMisfit_toVec]
  exact hsolves.dampedMisfit_lt hβ hD fun h => hy (Mat.toVec_injective h)

/-- The problem with the residual `u v - 6` in two parameters. -/
def productOfSix : Problem ℚ where
  equations := 1
  parameters := 2
  residual x := .ok ⟨(.ofFn fun _ _ => (x.get? 0 0).getD 0 * (x.get? 1 0).getD 0 - 6 : Mat ℚ 1 1)⟩
  jacobian x := .ok ⟨(⟨#v[#v[(x.get? 1 0).getD 0, (x.get? 0 0).getD 0]]⟩ : Mat ℚ 1 2)⟩

/-- The Jacobian of `u v - 6` at `(1, 2)`. -/
def slopes : Mat ℚ 1 2 := ⟨#v[#v[2, 1]]⟩

/-- The residual of `u v - 6` at `(1, 2)`. -/
def lacking : Mat ℚ 1 1 := ⟨#v[#v[-4]]⟩

/-- The direction at `(1, 2)` with damping `1`. -/
def towardSix : Mat ℚ 2 1 := ⟨#v[#v[4 / 3], #v[2 / 3]]⟩

lemma jacobian_productOfSix : productOfSix.jacobian (.ofColumn [1, 2]) = .ok ⟨slopes⟩ := by
  decide +kernel

lemma residual_productOfSix : productOfSix.residual (.ofColumn [1, 2]) = .ok ⟨lacking⟩ := by
  decide +kernel

/-- Without damping the normal matrix is singular here; with it there is one best step. -/
theorem direction_minimizes_productOfSix :
    productOfSix.direction (1 : ℚ) (.ofColumn [1, 2]) = .ok ⟨towardSix⟩ ∧
      ∀ y : Mat ℚ 2 1, y ≠ towardSix →
        (lacking + slopes * towardSix).normSquared + 1 * towardSix.normSquared <
          (lacking + slopes * y).normSquared + 1 * y.normSquared := by
  have hdirection : productOfSix.direction (1 : ℚ) (.ofColumn [1, 2]) = .ok ⟨towardSix⟩ := by
    decide +kernel
  obtain ⟨d, G, hd, hminimal, -⟩ := direction_minimizes productOfSix (.ofColumn [1, 2]) two_pos
    zero_le_one jacobian_productOfSix residual_productOfSix (isUnit_dampedNormal one_pos)
  obtain rfl : d = towardSix := by simpa using hd.symm.trans hdirection
  exact ⟨hdirection, hminimal⟩

/-- With more damping the direction at a point is not longer, and the residual of the linearised
problem not smaller. -/
theorem direction_shortens (p : Problem K) (x : Grid K) {J : Mat K m n} {f : Mat K m 1} {β₁ β₂ : K}
    (hn : 0 < n) (hβ : 0 ≤ β₁) (hle : β₁ ≤ β₂) (hJ : p.jacobian x = .ok ⟨J⟩)
    (hf : p.residual x = .ok ⟨f⟩) (hD : IsUnit (J.toMatrixᵀ * J.toMatrix + β₁ • 1)) :
    ∃ d₁ d₂ : Mat K n 1, p.direction β₁ x = .ok ⟨d₁⟩ ∧ p.direction β₂ x = .ok ⟨d₂⟩ ∧
      d₂.normSquared ≤ d₁.normSquared ∧
      (f + J * d₁).normSquared ≤ (f + J * d₂).normSquared := by
  obtain ⟨G₁, -, hd₁, hsolves₁⟩ := exists_direction hn hJ hf hD
  obtain ⟨G₂, -, hd₂, hsolves₂⟩ :=
    exists_direction hn hJ hf (isUnit_dampedNormal_of_le hβ hle hD)
  refine ⟨_, _, hd₁, hd₂, ?_, ?_⟩
  · simpa only [Mat.normSquared_eq_dotProduct] using hsolves₁.dotProduct_le hsolves₂ hβ hle hD
  · simpa only [Mat.normSquared_eq_dotProduct, Mat.toVec_add, Mat.toVec_mul] using
      hsolves₁.residual_le hsolves₂ hβ hle hD

/-- Going from damping `1` to damping `4` at the same point. -/
theorem direction_shortens_productOfSix :
    ∃ d₁ d₂ : Mat ℚ 2 1, productOfSix.direction (1 : ℚ) (.ofColumn [1, 2]) = .ok ⟨d₁⟩ ∧
      productOfSix.direction (4 : ℚ) (.ofColumn [1, 2]) = .ok ⟨d₂⟩ ∧
      d₂.normSquared ≤ d₁.normSquared ∧
      (lacking + slopes * d₁).normSquared ≤ (lacking + slopes * d₂).normSquared :=
  direction_shortens productOfSix (.ofColumn [1, 2]) two_pos zero_le_one (by norm_num)
    jacobian_productOfSix residual_productOfSix (isUnit_dampedNormal one_pos)

end Problem

end Workforce
