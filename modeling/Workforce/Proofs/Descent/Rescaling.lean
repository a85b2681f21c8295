import Workforce.Proofs.Descent.Correspondence
import Workforce.Proofs.Descent.Damping

/-!
# The factor of the Jacobian

The factor `k` that the Jacobian of a linear problem carries is a choice of units. In exact
arithmetic, a descent on the problem with factor `k` takes the same steps as the descent with its
damping divided by `k²` and its scales divided by `k` on the problem with factor `1`: the direction
of the latter is `k` times as long, so the trials of both lead to the same points.
-/

namespace Workforce

open Matrix

/-! ### Directions with and without the factor -/

section Direction

variable {K : Type} [Field K] {m n : ℕ} {A : Matrix (Fin m) (Fin n) K} {b : Fin m → K} {k β : K}
variable {x d : Fin n → K}

lemma normal_div_sq (hk : k ≠ 0) :
    (1 : K) ^ 2 • (Aᵀ * A) + (β / k ^ 2) • (1 : Matrix (Fin n) (Fin n) K) =
      (k ^ 2)⁻¹ • (k ^ 2 • (Aᵀ * A) + β • 1) := by
  rw [smul_add, smul_smul, smul_smul, inv_mul_cancel₀ (pow_ne_zero 2 hk), one_pow, mul_comm,
    ← div_eq_mul_inv]

lemma isUnit_normal_div_sq (hk : k ≠ 0) (hD : IsUnit (k ^ 2 • (Aᵀ * A) + β • 1)) :
    IsUnit ((1 : K) ^ 2 • (Aᵀ * A) + (β / k ^ 2) • 1) := by
  rw [normal_div_sq hk]
  exact hD.smul (Units.mk0 (k ^ 2)⁻¹ (inv_ne_zero (pow_ne_zero 2 hk)))

/-- Without the factor the direction is `k` times as long. -/
lemma DampedDirection.smul (h : DampedDirection A b k β x d) (hk : k ≠ 0) :
    DampedDirection A b 1 (β / k ^ 2) x (k • d) := by
  have hcancel : (k ^ 2)⁻¹ * (k * k) = 1 := by
    rw [← pow_two, inv_mul_cancel₀ (pow_ne_zero 2 hk)]
  rw [DampedDirection, normal_div_sq hk, smul_mulVec, mulVec_smul, h, smul_neg, smul_neg, smul_smul,
    smul_smul, mul_assoc, hcancel]

end Direction

namespace Descent

variable {K : Type} [Field K] [LinearOrder K] [IsStrictOrderedRing K] {s : Descent K}
variable {m n : ℕ} {A : Mat K m n} {b : Mat K m 1} {k : K} {x d : Mat K n 1} {i : ℕ}

/-! ### Searches with and without the factor -/

/-- The descent with its damping divided by `k²` and its scales divided by `k`. -/
def dividedBy (s : Descent K) (k : K) (hk : 0 < k) : Descent K where
  damping := s.damping / k ^ 2
  start := s.start / k
  shrink := s.shrink
  floor := s.floor / k
  not_damping_neg := not_lt.mpr (div_nonneg (not_lt.mp s.not_damping_neg) (sq_nonneg k))
  shrink_pos := s.shrink_pos
  shrink_lt_one := s.shrink_lt_one
  floor_pos := div_pos s.floor_pos hk
  floor_lt_start := div_lt_div_of_pos_right s.floor_lt_start hk

variable {hk : 0 < k}

lemma damping_dividedBy : (s.dividedBy k hk).damping = s.damping / k ^ 2 := rfl

lemma scaleAt_dividedBy : (s.dividedBy k hk).scaleAt i = s.scaleAt i / k := by
  induction i with
  | zero => rfl
  | succ i ih =>
    rw [scaleAt, ih, scaleAt]
    exact div_mul_eq_mul_div ..

/-- Along a direction that is `k` times as long, scales divided by `k` lead to the same points. -/
lemma corresponds_dividedBy :
    Corresponds (k * ·) id s (s.dividedBy k hk) (linearOf A b k) (linearOf A b 1) ⟨x⟩ ⟨d⟩ ⟨x⟩
      ⟨d.scale k⟩ where
  point_eq := rfl
  scaleAt_eq i := by rw [scaleAt_dividedBy, mul_div_cancel₀ _ hk.ne']
  floor_le_iff i := by
    rw [scaleAt_dividedBy]
    exact (div_le_div_iff_of_pos_right hk).symm
  trial_eq i := by
    have hscale : (d.scale k).scale (s.scaleAt i / k) = d.scale (s.scaleAt i) := by
      ext j l
      rw [Mat.get_scale, Mat.get_scale, Mat.get_scale, mul_assoc, mul_div_cancel₀ _ hk.ne']
    have hpoint : x.toVec + (s.scaleAt i / k) • (d.scale k).toVec =
        x.toVec + s.scaleAt i • d.toVec := by
      rw [← Mat.toVec_scale, hscale, Mat.toVec_scale]
    rw [scaleAt_dividedBy, trial_linearOf, trial_linearOf, hscale, hpoint]
    rfl

/-! ### Steps with and without the factor -/

variable [Inverter K] [ExactInverter K]

/-- A step on a linear problem whose Jacobian carries the factor `k` is a step on the problem
without the factor, by the descent with its damping divided by `k²` and its scales divided by `k`,
and only the accepted scale is `k` times as large. Over an Archimedean field both return. -/
theorem step_linear_factor (s : Descent K) (A : Mat K m n) (b : Mat K m 1) {k : K} (x : Mat K n 1)
    (hn : 0 < n) (hk : 0 < k)
    (hD : IsUnit (k ^ 2 • (A.toMatrixᵀ * A.toMatrix) + s.damping • 1)) :
    ∃ p p' : Problem K, Problem.linear ⟨A⟩ ⟨b⟩ k = .ok p ∧ Problem.linear ⟨A⟩ ⟨b⟩ 1 = .ok p' ∧
      s.step p ⟨x⟩ = ((s.dividedBy k hk).step p' ⟨x⟩).map (Recorded.map (k * ·) id) ∧
      (Archimedean K → ∃ r, (s.dividedBy k hk).step p' ⟨x⟩ = .ok r) := by
  have hD' : IsUnit ((1 : K) ^ 2 • (A.toMatrixᵀ * A.toMatrix) +
      (s.dividedBy k hk).damping • 1) := by
    rw [damping_dividedBy]
    exact isUnit_normal_div_sq hk.ne' hD
  obtain ⟨d, hdirection, hd⟩ := direction_linearOf (b := b) (x := x) hn hD
  obtain ⟨d', hdirection', hd'⟩ := direction_linearOf (b := b) (x := x) hn hD'
  -- both directions solve the same equations, and regular equations have one solution
  obtain rfl : d' = d.scale k := by
    apply Mat.toVec_injective
    rw [damping_dividedBy] at hd' hD'
    rw [Mat.toVec_scale]
    exact hd'.unique (hd.smul hk.ne') hD'
  refine ⟨linearOf A b k, linearOf A b 1, linear_mk, linear_mk, ?_, fun _ => ?_⟩
  · rw [step_eq_bind rfl errorAt_linearOf, step_eq_bind rfl errorAt_linearOf, hdirection,
      hdirection', ok_bind, ok_bind]
    exact corresponds_dividedBy.search_eq_map _
  · obtain ⟨r, -, hr, -⟩ := exists_step_linearOf (s := s.dividedBy k hk) (b := b) hn hD' x
    exact ⟨r, hr⟩

/-- With the factor `3` and the first scale `4`, or without it and with the first scale `4 / 3`. -/
theorem step_linear_factor_three :
    ∃ (p p' : Problem ℚ) (r : Recorded ℚ ℚ), Problem.linear ⟨onceAndTwice⟩ ⟨ones⟩ 3 = .ok p ∧
      Problem.linear ⟨onceAndTwice⟩ ⟨ones⟩ 1 = .ok p' ∧
      (halvingDamped.dividedBy 3 three_pos).step p' ⟨(.zero : Mat ℚ 1 1)⟩ = .ok r ∧
      halvingDamped.step p ⟨(.zero : Mat ℚ 1 1)⟩ = .ok (r.map (3 * ·) id) := by
  obtain ⟨p, p', hp, hp', hstep, hreturns⟩ := step_linear_factor halvingDamped onceAndTwice ones
    .zero one_pos three_pos (isUnit_damped (β := halvingDamped.damping) one_pos)
  obtain ⟨r, hr⟩ := hreturns inferInstance
  exact ⟨p, p', r, hp, hp', hr, by rw [hstep, hr]; rfl⟩

end Descent

end Workforce
