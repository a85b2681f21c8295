import Workforce.Proofs.Descent.Direction
import Workforce.Proofs.Descent.Runs

/-!
# Descent on linear problems in exact arithmetic

Over an ordered field with an exact inverter, a step on a linear problem takes its first scale
whenever that scale is below twice the factor of the Jacobian and the gradient does not vanish.
Where the gradient vanishes the step stays, since no scale leads anywhere else.
-/

namespace Workforce

open Matrix

/-! ### Grids in exact arithmetic -/

section Linear

variable {K : Type} [Field K] {m n : ℕ} {A : Mat K m n} {b : Mat K m 1} {k β : K} {x d : Mat K n 1}

/-- The linear problem with residuals `A x - b` and Jacobian `k A`. -/
def linearOf (A : Mat K m n) (b : Mat K m 1) (k : K) : Problem K where
  equations := m
  parameters := n
  residual := Problem.linearResidual ⟨A⟩ ⟨b⟩
  jacobian _ := .ok ⟨A.scale k⟩

lemma linear_mk : Problem.linear ⟨A⟩ ⟨b⟩ k = .ok (linearOf A b k) := if_pos rfl

lemma residual_linearOf : (linearOf A b k).residual ⟨x⟩ = .ok ⟨A * x - b⟩ := by
  simp [linearOf, Problem.linearResidual]

lemma jacobian_linearOf {y : Grid K} : (linearOf A b k).jacobian y = .ok ⟨A.scale k⟩ := rfl

lemma errorAt_linearOf :
    (linearOf A b k).errorAt ⟨x⟩ = .ok (misfit A.toMatrix b.toVec x.toVec) := by
  simp [Problem.errorAt, Problem.error, residual_linearOf, Except.map, Grid.normSquared,
    Mat.normSquared_eq_dotProduct, misfit, Steering.ofEntry]

lemma moved_iff {a : K} {y : Grid K} : Moved ⟨x⟩ ⟨d⟩ a y ↔ y = ⟨x + d.scale a⟩ := by
  simp [Moved, entryOf, Steering.toEntry, Grid.scale, eq_comm]

lemma errorAt_trial (a : K) :
    (linearOf A b k).errorAt ⟨x + d.scale a⟩ =
      .ok (misfit A.toMatrix b.toVec (x.toVec + a • d.toVec)) := by
  rw [errorAt_linearOf, Mat.toVec_add, Mat.toVec_scale]

lemma trial_linearOf (a : K) :
    Descent.trial (linearOf A b k) ⟨x⟩ ⟨d⟩ a =
      .ok (⟨x + d.scale a⟩, misfit A.toMatrix b.toVec (x.toVec + a • d.toVec)) :=
  Descent.trial_eq_ok_iff.mpr ⟨moved_iff.mpr rfl, errorAt_trial a⟩

lemma toMatrix_normal_scale :
    ((A.scale k).normal β).toMatrix = k ^ 2 • (A.toMatrixᵀ * A.toMatrix) + β • 1 := by
  rw [Mat.toMatrix_normal, Mat.toMatrix_scale, transpose_smul, Matrix.smul_mul, Matrix.mul_smul,
    smul_smul, pow_two]

/-- The direction on a linear problem whose damped normal matrix is regular. -/
lemma direction_linearOf [Inverter K] [ExactInverter K] (hn : 0 < n)
    (hD : IsUnit (k ^ 2 • (A.toMatrixᵀ * A.toMatrix) + β • 1)) :
    ∃ d : Mat K n 1, (linearOf A b k).direction β ⟨x⟩ = .ok ⟨d⟩ ∧
      DampedDirection A.toMatrix b.toVec k β x.toVec d.toVec := by
  rw [← toMatrix_normal_scale, Mat.toMatrix_normal] at hD
  obtain ⟨G, -, hd, hsolves⟩ := Problem.exists_direction hn
    (jacobian_linearOf (A := A) (b := b) (y := ⟨x⟩)) residual_linearOf hD
  rw [Mat.toMatrix_scale, Mat.toVec_sub, Mat.toVec_mul] at hsolves
  exact ⟨_, hd, dampedDirection_iff.mpr hsolves⟩

/-- What solves the damped normal equations is the direction, where their matrix is regular. -/
lemma direction_linearOf_eq_ok [Inverter K] [ExactInverter K] (hn : 0 < n)
    (hD : IsUnit (k ^ 2 • (A.toMatrixᵀ * A.toMatrix) + β • 1))
    (hd : DampedDirection A.toMatrix b.toVec k β x.toVec d.toVec) :
    (linearOf A b k).direction β ⟨x⟩ = .ok ⟨d⟩ := by
  obtain ⟨d', hdirection, hd'⟩ := direction_linearOf (b := b) (x := x) hn hD
  obtain rfl : d' = d := Mat.toVec_injective (hd'.unique hd hD)
  exact hdirection

end Linear

namespace Descent

variable {K : Type} [Field K] [LinearOrder K] {s : Descent K}
variable {m n : ℕ} {A : Mat K m n} {b : Mat K m 1} {k : K} {x d : Mat K n 1}

/-! ### The scales of a search -/

lemma scaleAt_eq (i : ℕ) : s.scaleAt i = s.start * s.shrink ^ i := by
  induction i with
  | zero => rw [pow_zero, mul_one, scaleAt]
  | succ i ih => rw [scaleAt, ih, pow_succ, mul_assoc]

lemma start_pos : 0 < s.start := s.floor_pos.trans s.floor_lt_start

lemma exists_scaleAt_lt_floor [IsStrictOrderedRing K] [Archimedean K] :
    ∃ i, ¬ s.floor ≤ s.scaleAt i := by
  obtain ⟨i, hi⟩ := exists_pow_lt_of_lt_one (div_pos s.floor_pos s.start_pos) s.shrink_lt_one
  refine ⟨i, not_le.mpr ?_⟩
  rw [scaleAt_eq, mul_comm]
  exact (lt_div_iff₀ s.start_pos).mp hi

/-- A search without a successful trial comes to an end, and the step stays. -/
lemma exists_searched_of_fails [IsStrictOrderedRing K] [Archimedean K] {p : Problem K}
    {x d : Grid K} {error : K} (h : ∀ a, TrialFails p x d error a) :
    ∃ r, Searched s p x d error r ∧ r.outcome.accepted = false ∧ r.outcome.x = x := by
  classical
  have hfloor := s.exists_scaleAt_lt_floor
  refine ⟨_, .exhausted (k := Nat.find hfloor) (fun i hi => ⟨?_, h _⟩) (Nat.find_spec hfloor), rfl,
    rfl⟩
  exact not_not.mp (Nat.find_min hfloor hi)

/-! ### Trials -/

/-- Where the gradient does not vanish, the trial of every scale below `2 k` decreases the error. -/
lemma misfit_trial_lt [IsStrictOrderedRing K]
    (hd : DampedDirection A.toMatrix b.toVec k s.damping x.toVec d.toVec) (hk : 0 < k)
    (hgradient : gradient A.toMatrix b.toVec x.toVec ≠ 0) {a : K} (ha : 0 < a) (hak : a < 2 * k) :
    misfit A.toMatrix b.toVec (x.toVec + a • d.toVec) < misfit A.toMatrix b.toVec x.toVec :=
  hd.misfit_lt hk (not_lt.mp s.not_damping_neg) hgradient ha hak

/-- Where the gradient vanishes, every trial leads back to the point itself. -/
lemma trialFails_of_gradient_eq_zero
    (hd : DampedDirection A.toMatrix b.toVec k s.damping x.toVec d.toVec)
    (hD : IsUnit (k ^ 2 • (A.toMatrixᵀ * A.toMatrix) + s.damping • 1))
    (hgradient : gradient A.toMatrix b.toVec x.toVec = 0) (a : K) :
    TrialFails (linearOf A b k) ⟨x⟩ ⟨d⟩ (misfit A.toMatrix b.toVec x.toVec) a := by
  refine ⟨_, _, moved_iff.mpr rfl, errorAt_trial a, ?_⟩
  rw [hd.eq_zero hD hgradient, smul_zero, add_zero]
  exact lt_irrefl _

/-! ### Steps -/

variable [IsStrictOrderedRing K] [Inverter K] [ExactInverter K]

/-- Where the gradient does not vanish, a step takes its first scale. -/
lemma step_of_gradient_ne_zero (hn : 0 < n) (hk : 0 < k) (hstart : s.start < 2 * k)
    (hD : IsUnit (k ^ 2 • (A.toMatrixᵀ * A.toMatrix) + s.damping • 1))
    (hgradient : gradient A.toMatrix b.toVec x.toVec ≠ 0) :
    ∃ (r : Recorded K K) (d : Mat K n 1), s.step (linearOf A b k) ⟨x⟩ = .ok r ∧
      DampedDirection A.toMatrix b.toVec k s.damping x.toVec d.toVec ∧
      r.outcome.accepted = true ∧ r.outcome.trials = 1 ∧ r.outcome.scale = some s.start ∧
      r.outcome.x = ⟨x + d.scale s.start⟩ := by
  obtain ⟨d, hdirection, hd⟩ := direction_linearOf (b := b) (x := x) hn hD
  have hsearched := Searched.accepted (s := s) (k := 0) (fun i hi => absurd hi i.not_lt_zero)
    s.floor_lt_start.le (moved_iff.mpr rfl) (errorAt_trial (b := b) (k := k) s.start)
    (misfit_trial_lt hd hk hgradient s.start_pos hstart)
  exact ⟨_, d, step_eq_ok_iff.mpr ⟨rfl, _, _, errorAt_linearOf, hdirection, hsearched⟩, hd, rfl,
    rfl, rfl, rfl⟩

/-- Where the gradient vanishes, a step stays. -/
lemma step_of_gradient_eq_zero [Archimedean K] (hn : 0 < n)
    (hD : IsUnit (k ^ 2 • (A.toMatrixᵀ * A.toMatrix) + s.damping • 1))
    (hgradient : gradient A.toMatrix b.toVec x.toVec = 0) :
    ∃ r, s.step (linearOf A b k) ⟨x⟩ = .ok r ∧ r.outcome.accepted = false ∧
      r.outcome.x = ⟨x⟩ := by
  obtain ⟨d, hdirection, hd⟩ := direction_linearOf (b := b) (x := x) hn hD
  obtain ⟨r, hr, hrejected, hx⟩ :=
    s.exists_searched_of_fails (trialFails_of_gradient_eq_zero hd hD hgradient)
  exact ⟨r, step_eq_ok_iff.mpr ⟨rfl, _, _, errorAt_linearOf, hdirection, hr⟩, hrejected, hx⟩

/-- A step on a linear problem. Unless the gradient vanishes, every scale below `2 k` decreases the
error, and a first scale below `2 k` is taken. Where the gradient vanishes, no scale at all
decreases the error, and the step stays. -/
theorem step_linear_moves_unless_stationary [Archimedean K] (s : Descent K) (A : Mat K m n)
    (b : Mat K m 1) (k : K) (x : Mat K n 1) (hn : 0 < n) (hk : 0 < k)
    (hD : IsUnit (k ^ 2 • (A.toMatrixᵀ * A.toMatrix) + s.damping • 1)) :
    ∃ (p : Problem K) (d : Grid K) (e : K), Problem.linear ⟨A⟩ ⟨b⟩ k = .ok p ∧
      p.direction s.damping ⟨x⟩ = .ok d ∧ p.errorAt ⟨x⟩ = .ok e ∧
      (A.toMatrixᵀ *ᵥ (A.toMatrix *ᵥ x.toVec - b.toVec) ≠ 0 →
        (∀ a, 0 < a → a < 2 * k →
          ∃ x' e', Moved ⟨x⟩ d a x' ∧ p.errorAt x' = .ok e' ∧ e' < e) ∧
        (s.start < 2 * k → ∃ r, s.step p ⟨x⟩ = .ok r ∧ r.outcome.accepted = true ∧
          r.outcome.trials = 1 ∧ r.outcome.scale = some s.start)) ∧
      (A.toMatrixᵀ *ᵥ (A.toMatrix *ᵥ x.toVec - b.toVec) = 0 →
        (∀ a, TrialFails p ⟨x⟩ d e a) ∧
        ∃ r, s.step p ⟨x⟩ = .ok r ∧ r.outcome.accepted = false ∧ r.outcome.x = ⟨x⟩) := by
  obtain ⟨d, hdirection, hd⟩ := direction_linearOf (b := b) (x := x) hn hD
  refine ⟨linearOf A b k, ⟨d⟩, misfit A.toMatrix b.toVec x.toVec, linear_mk, hdirection,
    errorAt_linearOf, fun hgradient => ⟨fun a ha hak => ?_, fun hstart => ?_⟩,
    fun hgradient => ⟨?_, step_of_gradient_eq_zero hn hD hgradient⟩⟩
  -- the error is a parabola in the scale, and below its value at zero up to `2 k` at least
  · exact ⟨_, _, moved_iff.mpr rfl, errorAt_trial a, misfit_trial_lt hd hk hgradient ha hak⟩
  · obtain ⟨r, d, hr, -, haccepted, htrials, hscale, -⟩ :=
      step_of_gradient_ne_zero hn hk hstart hD hgradient
    exact ⟨r, hr, haccepted, htrials, hscale⟩
  · exact trialFails_of_gradient_eq_zero hd hD hgradient

/-- The equations `x = 1` and `2 x = 1` in one parameter. -/
def onceAndTwice : Mat ℚ 2 1 := .ofFn fun i _ => i + 1

def ones : Mat ℚ 2 1 := .ofFn fun _ _ => 1

/-- The scales of `halving`, with damping. -/
def halvingDamped : Descent ℚ := { halving with damping := 1, not_damping_neg := by simp }

/-- From `0` the first scale, `4`, is taken when the Jacobian carries the factor `3`. -/
theorem step_linear_moves_from_zero :
    ∃ p r, Problem.linear ⟨onceAndTwice⟩ ⟨ones⟩ 3 = .ok p ∧
      halvingDamped.step p ⟨(.zero : Mat ℚ 1 1)⟩ = .ok r ∧ r.outcome.scale = some 4 := by
  have hD : IsUnit ((3 : ℚ) ^ 2 • (onceAndTwice.toMatrixᵀ * onceAndTwice.toMatrix) +
      halvingDamped.damping • 1) := by
    rw [Matrix.isUnit_iff_isUnit_det, isUnit_iff_ne_zero]
    simp [onceAndTwice, halvingDamped, Matrix.mul_apply, Fin.sum_univ_two]
    norm_num
  obtain ⟨p, d, e, hp, -, -, hmoves, -⟩ :=
    step_linear_moves_unless_stationary halvingDamped onceAndTwice ones 3 .zero one_pos
      (by norm_num) hD
  have hgradient : onceAndTwice.toMatrixᵀ *ᵥ
      (onceAndTwice.toMatrix *ᵥ (Mat.zero : Mat ℚ 1 1).toVec - ones.toVec) ≠ 0 := by
    intro h
    have h₀ := congrFun h 0
    simp [onceAndTwice, ones, Matrix.mulVec, dotProduct, Fin.sum_univ_two] at h₀
    norm_num at h₀
  obtain ⟨r, hr, -, -, hscale⟩ := (hmoves hgradient).2 (by norm_num [halvingDamped, halving])
  exact ⟨p, r, hp, hr, hscale⟩

end Descent

end Workforce
