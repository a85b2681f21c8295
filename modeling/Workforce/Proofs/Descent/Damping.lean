import Workforce.Proofs.Descent.Linear

/-!
# Damping and singular normal matrices

With damping the normal matrix of every linear problem is regular, and runs of any length return.
Without damping it is singular where there are fewer equations than parameters, and then the first
step is refused. Neither depends on the point from which a run starts.
-/

namespace Workforce

open Matrix

section NormalMatrix

variable {K : Type} [Field K] {m n : ℕ} {A : Matrix (Fin m) (Fin n) K} {k β : K}

/-- Fewer equations than parameters leave the undamped normal matrix without full rank. -/
lemma not_isUnit_undamped_of_lt (h : m < n) : ¬ IsUnit (k ^ 2 • (Aᵀ * A) + (0 : K) • 1) := by
  intro hunit
  rw [zero_smul, add_zero, ← Matrix.mul_smul] at hunit
  have hfull : (Aᵀ * k ^ 2 • A).rank = n := by
    rw [rank_of_isUnit _ hunit, Fintype.card_fin]
  have hle : (Aᵀ * k ^ 2 • A).rank ≤ m :=
    (rank_mul_le_left _ _).trans (rank_le_width _)
  omega

/-- With damping the normal matrix is regular. -/
lemma isUnit_damped [LinearOrder K] [IsStrictOrderedRing K] (hβ : 0 < β) :
    IsUnit (k ^ 2 • (Aᵀ * A) + β • 1) := by
  have hD := isUnit_dampedNormal (J := k • A) hβ
  rwa [transpose_smul, Matrix.smul_mul, Matrix.mul_smul, smul_smul, ← pow_two] at hD

end NormalMatrix

variable {K : Type} [Field K] {m n : ℕ} {A : Mat K m n} {b : Mat K m 1} {k β : K} {x d : Mat K n 1}

/-- Where the damped normal matrix is singular, there is no direction. -/
lemma direction_linearOf_eq_error [Inverter K] [ExactInverter K] (hn : 0 < n)
    (hD : ¬ IsUnit (k ^ 2 • (A.toMatrixᵀ * A.toMatrix) + β • 1)) :
    ∃ e, (linearOf A b k).direction β ⟨x⟩ = .error (.inversion e) ∧ e.isSingular = true := by
  rw [← toMatrix_normal_scale] at hD
  cases hX : ((A.scale k).normal β).invert with
  | ok X =>
    have hinverse := ExactInverter.mul_eq_one hX
    exact absurd (IsUnit.of_mul_eq_one _ hinverse) hD
  | error e =>
    exact ⟨e, Problem.direction_eq_error rfl jacobian_linearOf hX,
      (ExactInverter.isSingular_of_error hn hX).1⟩

namespace Descent

variable [LinearOrder K] {s : Descent K}

/-! ### Regular normal matrices -/

section Regular

variable [IsStrictOrderedRing K] [Archimedean K]

/-- On a linear problem every search comes to an end: the first scale that is below the floor or
whose trial does not fail decides it. -/
lemma exists_searched_linearOf (s : Descent K) (e : K) : ∃ (r : Recorded K K) (y : Mat K n 1),
    Searched s (linearOf A b k) ⟨x⟩ ⟨d⟩ e r ∧ r.outcome.x = ⟨y⟩ := by
  classical
  have hends : ∃ i, ¬ (s.floor ≤ s.scaleAt i ∧
      TrialFails (linearOf A b k) ⟨x⟩ ⟨d⟩ e (s.scaleAt i)) :=
    s.exists_scaleAt_lt_floor.imp fun i hi h => hi h.1
  obtain ⟨i, hi, hfails⟩ : ∃ i, ¬ (s.floor ≤ s.scaleAt i ∧
      TrialFails (linearOf A b k) ⟨x⟩ ⟨d⟩ e (s.scaleAt i)) ∧
      s.FailsUpTo (linearOf A b k) ⟨x⟩ ⟨d⟩ e i :=
    ⟨_, Nat.find_spec hends, fun j hj => not_not.mp (Nat.find_min hends hj)⟩
  by_cases hfloor : s.floor ≤ s.scaleAt i
  · have hmoved : Moved ⟨x⟩ ⟨d⟩ (s.scaleAt i) (⟨x + d.scale (s.scaleAt i)⟩ : Grid K) :=
      moved_iff.mpr rfl
    have herror := errorAt_trial (A := A) (b := b) (k := k) (x := x) (d := d) (s.scaleAt i)
    refine ⟨_, _, .accepted hfails hfloor hmoved herror ?_, rfl⟩
    exact not_not.mp fun hlt => hi ⟨hfloor, _, _, hmoved, herror, hlt⟩
  · exact ⟨_, x, .exhausted hfails hfloor, rfl⟩

variable [Inverter K] [ExactInverter K]

/-- Where the damped normal matrix is regular, every step returns. -/
lemma exists_step_linearOf (hn : 0 < n)
    (hD : IsUnit (k ^ 2 • (A.toMatrixᵀ * A.toMatrix) + s.damping • 1)) (x : Mat K n 1) :
    ∃ (r : Recorded K K) (y : Mat K n 1),
      s.step (linearOf A b k) ⟨x⟩ = .ok r ∧ r.outcome.x = ⟨y⟩ := by
  obtain ⟨d, hdirection, -⟩ := direction_linearOf (b := b) (x := x) hn hD
  obtain ⟨r, y, hr, hy⟩ := exists_searched_linearOf (A := A) (b := b) (k := k) (x := x) (d := d) s
    (misfit A.toMatrix b.toVec x.toVec)
  exact ⟨r, y, step_eq_ok_iff.mpr ⟨rfl, _, _, errorAt_linearOf, hdirection, hr⟩, hy⟩

/-- Where the damped normal matrix is regular, every run returns, by induction on its length. -/
lemma exists_iterate_linearOf (hn : 0 < n)
    (hD : IsUnit (k ^ 2 • (A.toMatrixᵀ * A.toMatrix) + s.damping • 1)) (x : Mat K n 1)
    (steps : ℕ) : ∃ os, s.iterate (linearOf A b k) ⟨x⟩ steps = .ok os := by
  induction steps generalizing x with
  | zero => exact ⟨[], iterate_zero⟩
  | succ steps ih =>
    obtain ⟨r, y, hr, hy⟩ := exists_step_linearOf (b := b) hn hD x
    obtain ⟨os, hos⟩ := ih y
    exact ⟨r.outcome :: os, by simp [iterate_succ, hr, hy, hos]⟩

end Regular

/-! ### Singular normal matrices -/

variable [Inverter K] [ExactInverter K]

/-- Where the damped normal matrix is singular, a run of at least one step is refused. -/
lemma iterate_linearOf_eq_error (hn : 0 < n)
    (hD : ¬ IsUnit (k ^ 2 • (A.toMatrixᵀ * A.toMatrix) + s.damping • 1)) (x : Mat K n 1)
    {steps : ℕ} (hsteps : 0 < steps) :
    ∃ e, s.iterate (linearOf A b k) ⟨x⟩ steps = .error (.inversion e) ∧ e.isSingular = true := by
  obtain ⟨e, he, hsingular⟩ := direction_linearOf_eq_error (b := b) (x := x) hn hD
  have hstep : s.step (linearOf A b k) ⟨x⟩ = .error (.inversion e) := by
    rw [step_eq_bind rfl errorAt_linearOf, he, error_bind]
  exact ⟨e, iterate_eq_error_iff.mpr ⟨0, hsteps, [], rfl, hstep⟩, hsingular⟩

end Descent

end Workforce
