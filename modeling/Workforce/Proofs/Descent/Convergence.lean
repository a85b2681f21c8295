import Workforce.Proofs.Descent.Linear

/-!
# Convergence on linear problems

Without damping, every step on a linear problem with independent columns scales the distance to
the least squares solution by the same factor, so the points of a run are known in closed form.
-/

namespace Workforce

open Matrix

namespace Descent

variable {K : Type} [Field K] [LinearOrder K] [IsStrictOrderedRing K]
variable {m n : ℕ} {A : Mat K m n} {b : Mat K m 1} {k : K} {x z : Mat K n 1} {s : Descent K}

/-- A linear problem with independent columns has one least squares solution. -/
lemma exists_solution (hA : LinearIndependent K A.toMatrix.col) (b : Mat K m 1) :
    ∃ z : Mat K n 1, ∀ y : Mat K n 1,
      (A.toMatrixᵀ * A.toMatrix) *ᵥ y.toVec = A.toMatrixᵀ *ᵥ b.toVec ↔ y = z := by
  have hN := isUnit_transpose_mul_self hA
  obtain ⟨v, hv⟩ := mulVec_surjective_iff_isUnit.mpr hN (A.toMatrixᵀ *ᵥ b.toVec)
  obtain ⟨z, rfl⟩ := Mat.exists_toVec_eq v
  refine ⟨z, fun y => ⟨fun hy => ?_, ?_⟩⟩
  · exact Mat.toVec_injective (mulVec_injective_iff_isUnit.mpr hN (hy.trans hv.symm))
  · rintro rfl
    exact hv

lemma isUnit_undamped (hA : LinearIndependent K A.toMatrix.col) (hk : 0 < k)
    (hdamping : s.damping = 0) :
    IsUnit (k ^ 2 • (A.toMatrixᵀ * A.toMatrix) + s.damping • 1) := by
  rw [hdamping, zero_smul, add_zero]
  exact (isUnit_transpose_mul_self hA).smul (Units.mk0 (k ^ 2) (pow_ne_zero 2 hk.ne'))

variable [Inverter K] [ExactInverter K]

/-- Away from the solution a step takes its first scale. -/
lemma step_of_ne_solution (hn : 0 < n) (hk : 0 < k) (hA : LinearIndependent K A.toMatrix.col)
    (hdamping : s.damping = 0) (hstart : s.start < 2 * k)
    (hz : (A.toMatrixᵀ * A.toMatrix) *ᵥ z.toVec = A.toMatrixᵀ *ᵥ b.toVec) (hx : x ≠ z) :
    ∃ (r : Recorded K K) (y : Mat K n 1), s.step (linearOf A b k) ⟨x⟩ = .ok r ∧
      r.outcome.accepted = true ∧ r.outcome.trials = 1 ∧ r.outcome.scale = some s.start ∧
      r.outcome.x = ⟨y⟩ ∧ y.toVec - z.toVec = (1 - s.start / k) • (x.toVec - z.toVec) := by
  have hN := isUnit_transpose_mul_self hA
  have hgradient : gradient A.toMatrix b.toVec x.toVec ≠ 0 := by
    intro h
    exact hx (Mat.toVec_injective ((gradient_eq_zero_iff hN hz).mp h))
  obtain ⟨r, d, hr, hd, haccepted, htrials, hscale, hend⟩ :=
    step_of_gradient_ne_zero hn hk hstart (isUnit_undamped hA hk hdamping) hgradient
  refine ⟨r, x + d.scale s.start, hr, haccepted, htrials, hscale, hend, ?_⟩
  rw [hdamping] at hd
  rw [Mat.toVec_add, Mat.toVec_scale, hd.add_smul_sub hk.ne' hN hz]

/-- At the solution a step stays. -/
lemma step_of_eq_solution [Archimedean K] (hn : 0 < n) (hk : 0 < k)
    (hA : LinearIndependent K A.toMatrix.col) (hdamping : s.damping = 0)
    (hz : (A.toMatrixᵀ * A.toMatrix) *ᵥ z.toVec = A.toMatrixᵀ *ᵥ b.toVec) :
    ∃ r, s.step (linearOf A b k) ⟨z⟩ = .ok r ∧ r.outcome.accepted = false ∧
      r.outcome.x = ⟨z⟩ :=
  step_of_gradient_eq_zero hn (isUnit_undamped hA hk hdamping)
    ((gradient_eq_zero_iff (isUnit_transpose_mul_self hA) hz).mpr rfl)

/-- The points of a run, by induction on its length. -/
lemma exists_iterate_eq_ok [Archimedean K] (hn : 0 < n) (hk : 0 < k)
    (hA : LinearIndependent K A.toMatrix.col) (hdamping : s.damping = 0)
    (hstart : s.start < 2 * k)
    (hz : (A.toMatrixᵀ * A.toMatrix) *ᵥ z.toVec = A.toMatrixᵀ *ᵥ b.toVec) (x : Mat K n 1)
    (steps : ℕ) :
    ∃ (os : List (Outcome K K)) (y : Mat K n 1), s.iterate (linearOf A b k) ⟨x⟩ steps = .ok os ∧
      Outcome.lastPoint ⟨x⟩ os = ⟨y⟩ ∧
      y.toVec - z.toVec = (1 - s.start / k) ^ steps • (x.toVec - z.toVec) := by
  induction steps generalizing x with
  | zero => exact ⟨[], x, iterate_zero, rfl, by rw [pow_zero, one_smul]⟩
  | succ steps ih =>
    obtain ⟨r, x', hr, hx', hdistance⟩ : ∃ (r : Recorded K K) (x' : Mat K n 1),
        s.step (linearOf A b k) ⟨x⟩ = .ok r ∧ r.outcome.x = ⟨x'⟩ ∧
          x'.toVec - z.toVec = (1 - s.start / k) • (x.toVec - z.toVec) := by
      -- from the solution a step stays, and a distance of zero shrinks by any factor
      by_cases hx : x = z
      · obtain ⟨r, hr, -, hend⟩ := step_of_eq_solution hn hk hA hdamping hz
        exact ⟨r, z, hx ▸ hr, hend, by rw [hx, sub_self, smul_zero]⟩
      · obtain ⟨r, y, hr, -, -, -, hend, hdistance⟩ :=
          step_of_ne_solution hn hk hA hdamping hstart hz hx
        exact ⟨r, y, hr, hend, hdistance⟩
    obtain ⟨os, y, hos, hlast, hy⟩ := ih x'
    refine ⟨r.outcome :: os, y, ?_, ?_, ?_⟩
    · simp [iterate_succ, hr, hx', hos]
    · rw [Outcome.lastPoint_cons, hx', hlast]
    · rw [hy, hdistance, smul_smul, pow_succ]

/-- A run without damping on a linear problem with independent columns. The distance to the least
squares solution shrinks by the factor `1 - a / k` with every step, where `a` is the first scale.
Steps from elsewhere take their first scale, steps from the solution stay. -/
theorem iterate_linear_closed_form [Archimedean K] (s : Descent K) (A : Mat K m n) (b : Mat K m 1)
    (k : K) (hn : 0 < n) (hk : 0 < k) (hA : LinearIndependent K A.toMatrix.col)
    (hdamping : s.damping = 0) (hstart : s.start < 2 * k) :
    ∃ (p : Problem K) (z : Mat K n 1), Problem.linear ⟨A⟩ ⟨b⟩ k = .ok p ∧
      (∀ y : Mat K n 1,
        (A.toMatrixᵀ * A.toMatrix) *ᵥ y.toVec = A.toMatrixᵀ *ᵥ b.toVec ↔ y = z) ∧
      (∀ (x : Mat K n 1) (steps : ℕ), ∃ (os : List (Outcome K K)) (y : Mat K n 1),
        s.iterate p ⟨x⟩ steps = .ok os ∧ Outcome.lastPoint ⟨x⟩ os = ⟨y⟩ ∧
        y.toVec - z.toVec = (1 - s.start / k) ^ steps • (x.toVec - z.toVec)) ∧
      (∀ x : Mat K n 1, x ≠ z → ∃ r, s.step p ⟨x⟩ = .ok r ∧ r.outcome.accepted = true ∧
        r.outcome.trials = 1 ∧ r.outcome.scale = some s.start) ∧
      ∃ r, s.step p ⟨z⟩ = .ok r ∧ r.outcome.accepted = false ∧ r.outcome.x = ⟨z⟩ := by
  obtain ⟨z, hsolution⟩ := exists_solution hA b
  have hz := (hsolution z).mpr rfl
  refine ⟨linearOf A b k, z, linear_mk, hsolution,
    exists_iterate_eq_ok hn hk hA hdamping hstart hz, fun x hx => ?_,
    step_of_eq_solution hn hk hA hdamping hz⟩
  obtain ⟨r, -, hr, haccepted, htrials, hscale, -⟩ :=
    step_of_ne_solution hn hk hA hdamping hstart hz hx
  exact ⟨r, hr, haccepted, htrials, hscale⟩

/-- With the first scale `4` and the factor `3`, every step passes by the solution and goes on for a
third of the distance. -/
theorem iterate_linear_overshoots :
    ∃ (p : Problem ℚ) (z : Mat ℚ 1 1), Problem.linear ⟨onceAndTwice⟩ ⟨ones⟩ 3 = .ok p ∧
      ∀ x : Mat ℚ 1 1, ∃ (os : List (Outcome ℚ ℚ)) (y : Mat ℚ 1 1),
        halving.iterate p ⟨x⟩ 3 = .ok os ∧ Outcome.lastPoint ⟨x⟩ os = ⟨y⟩ ∧
        y.toVec - z.toVec = (-1 / 3 : ℚ) ^ 3 • (x.toVec - z.toVec) := by
  have hA : LinearIndependent ℚ onceAndTwice.toMatrix.col := by
    rw [linearIndependent_unique_iff]
    intro h
    have h₀ := congrFun h 0
    simp [onceAndTwice, Matrix.col] at h₀
  obtain ⟨p, z, hp, -, hiterate, -⟩ :=
    iterate_linear_closed_form halving onceAndTwice ones 3 one_pos (by norm_num) hA rfl
      (by norm_num [halving])
  refine ⟨p, z, hp, fun x => ?_⟩
  obtain ⟨os, y, hos, hlast, hy⟩ := hiterate x 3
  have hfactor : 1 - halving.start / 3 = -1 / 3 := by norm_num [halving]
  rw [hfactor] at hy
  exact ⟨os, y, hos, hlast, hy⟩

end Descent

end Workforce
