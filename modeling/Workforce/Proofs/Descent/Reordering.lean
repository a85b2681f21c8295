import Workforce.Proofs.Descent.Correspondence
import Workforce.Proofs.Descent.Damping
import Workforce.Proofs.Mat.Reordering

/-!
# The order of equations and parameters

A linear problem is a set of equations in a set of parameters, and in exact arithmetic its order
does not matter. The damped normal matrix of the reordered problem is the reordered normal matrix,
so the one direction that solves the damped normal equations is reordered as well, however the
inverse is found. Trials then lead to reordered points with equal errors
(`step_linearOf_reordered`), and so do runs (`iterate_linear_reordered`).
-/

namespace Workforce

open Matrix

/-! ### Problems in another order -/

section LeastSquares

variable {K : Type} [Field K] {m n : ℕ} {A : Matrix (Fin m) (Fin n) K} {b : Fin m → K} {k β : K}
variable {x d : Fin n → K} {σ : Equiv.Perm (Fin m)} {τ : Equiv.Perm (Fin n)}

lemma submatrix_mulVec_comp : A.submatrix σ τ *ᵥ (x ∘ τ) = (A *ᵥ x) ∘ σ := by
  rw [submatrix_mulVec_equiv, Function.comp_assoc, Equiv.self_comp_symm, Function.comp_id]

lemma residual_submatrix : A.submatrix σ τ *ᵥ (x ∘ τ) - b ∘ σ = (A *ᵥ x - b) ∘ σ := by
  rw [submatrix_mulVec_comp]
  rfl

lemma misfit_submatrix : misfit (A.submatrix σ τ) (b ∘ σ) (x ∘ τ) = misfit A b x := by
  rw [misfit, residual_submatrix, comp_equiv_dotProduct_comp_equiv, misfit]

lemma gradient_submatrix : gradient (A.submatrix σ τ) (b ∘ σ) (x ∘ τ) = gradient A b x ∘ τ := by
  rw [gradient, residual_submatrix, transpose_submatrix, submatrix_mulVec_comp, gradient]

/-- The order of the equations leaves no trace in the damped normal matrix. -/
lemma normal_submatrix :
    k ^ 2 • ((A.submatrix σ τ)ᵀ * A.submatrix σ τ) + β • 1 =
      (k ^ 2 • (Aᵀ * A) + β • 1).submatrix τ τ := by
  rw [transpose_submatrix, submatrix_mul_equiv, submatrix_add, submatrix_smul, submatrix_smul,
    Pi.add_apply, Pi.add_apply]
  simp only [Pi.smul_apply, submatrix_one_equiv]

lemma isUnit_normal_submatrix (hD : IsUnit (k ^ 2 • (Aᵀ * A) + β • 1)) :
    IsUnit (k ^ 2 • ((A.submatrix σ τ)ᵀ * A.submatrix σ τ) + β • 1) := by
  rwa [normal_submatrix, isUnit_submatrix_equiv]

lemma DampedDirection.submatrix (h : DampedDirection A b k β x d) :
    DampedDirection (A.submatrix σ τ) (b ∘ σ) k β (x ∘ τ) (d ∘ τ) := by
  rw [DampedDirection, normal_submatrix, submatrix_mulVec_comp, h, gradient_submatrix]
  rfl

end LeastSquares

section Reordered

variable {K : Type} [Field K] {m n : ℕ} {A : Mat K m n} {b : Mat K m 1} {k β : K} {x d : Mat K n 1}
variable {σ : Equiv.Perm (Fin m)} {τ : Equiv.Perm (Fin n)}

lemma misfit_reordered :
    misfit (A.reordered σ τ).toMatrix (b.reordered σ 1).toVec (x.reordered τ 1).toVec =
      misfit A.toMatrix b.toVec x.toVec := by
  rw [Mat.toMatrix_reordered, Mat.toVec_reordered, Mat.toVec_reordered, misfit_submatrix]

lemma isUnit_normal_reordered (hD : IsUnit (k ^ 2 • (A.toMatrixᵀ * A.toMatrix) + β • 1)) :
    IsUnit (k ^ 2 • ((A.reordered σ τ).toMatrixᵀ * (A.reordered σ τ).toMatrix) + β • 1) := by
  rw [Mat.toMatrix_reordered]
  exact isUnit_normal_submatrix hD

lemma reordered_add_scale (a : K) :
    x.reordered τ 1 + (d.reordered τ 1).scale a = (x + d.scale a).reordered τ 1 := by
  ext i j
  simp

lemma DampedDirection.reordered
    (h : DampedDirection A.toMatrix b.toVec k β x.toVec d.toVec) :
    DampedDirection (A.reordered σ τ).toMatrix (b.reordered σ 1).toVec k β
      (x.reordered τ 1).toVec (d.reordered τ 1).toVec := by
  rw [Mat.toMatrix_reordered, Mat.toVec_reordered, Mat.toVec_reordered, Mat.toVec_reordered]
  exact h.submatrix

/-- The direction on the reordered problem is the reordered direction. -/
lemma direction_linearOf_reordered [Inverter K] [ExactInverter K] (hn : 0 < n)
    (hD : IsUnit (k ^ 2 • (A.toMatrixᵀ * A.toMatrix) + β • 1)) :
    ∃ d : Mat K n 1, (linearOf A b k).direction β ⟨x⟩ = .ok ⟨d⟩ ∧
      (linearOf (A.reordered σ τ) (b.reordered σ 1) k).direction β ⟨x.reordered τ 1⟩ =
        .ok ⟨d.reordered τ 1⟩ := by
  obtain ⟨d, hdirection, hd⟩ := direction_linearOf (b := b) (x := x) hn hD
  exact ⟨d, hdirection, direction_linearOf_eq_ok hn (isUnit_normal_reordered hD) hd.reordered⟩

end Reordered

namespace Descent

variable {K : Type} [Field K] [LinearOrder K] {s : Descent K} {m n : ℕ} {A : Mat K m n}
variable {b : Mat K m 1} {k : K} {x d : Mat K n 1} {σ : Equiv.Perm (Fin m)}
variable {τ : Equiv.Perm (Fin n)}

/-! ### Searches, steps and runs in another order -/

/-- Along the reordered direction all scales lead to reordered points. -/
lemma corresponds_reordered :
    Corresponds id (Grid.reordered · τ) s s (linearOf (A.reordered σ τ) (b.reordered σ 1) k)
      (linearOf A b k) ⟨x.reordered τ 1⟩ ⟨d.reordered τ 1⟩ ⟨x⟩ ⟨d⟩ where
  point_eq := (Grid.reordered_mk x τ).symm
  scaleAt_eq _ := rfl
  floor_le_iff _ := Iff.rfl
  trial_eq i := by
    rw [trial_linearOf, trial_linearOf, ← Mat.toVec_scale, ← Mat.toVec_scale, ← Mat.toVec_add,
      ← Mat.toVec_add, reordered_add_scale, misfit_reordered]
    simp [Except.map]

variable [Inverter K] [ExactInverter K]

/-- A step on the reordered problem is the reordered step. -/
lemma step_linearOf_reordered (hn : 0 < n)
    (hD : IsUnit (k ^ 2 • (A.toMatrixᵀ * A.toMatrix) + s.damping • 1)) :
    s.step (linearOf (A.reordered σ τ) (b.reordered σ 1) k) ⟨x.reordered τ 1⟩ =
      (s.step (linearOf A b k) ⟨x⟩).map (Recorded.map id (Grid.reordered · τ)) := by
  obtain ⟨d, hd, hd'⟩ := direction_linearOf_reordered (b := b) (x := x) (σ := σ) (τ := τ) hn hD
  rw [step_eq_bind rfl errorAt_linearOf, step_eq_bind rfl errorAt_linearOf, hd, hd', ok_bind,
    ok_bind, misfit_reordered]
  exact corresponds_reordered.search_eq_map _

/-- A run on the reordered problem is the reordered run, by induction on its length: a step ends at
the reordered point, from which the rest of the run goes on. -/
lemma iterate_linearOf_reordered (hn : 0 < n)
    (hD : IsUnit (k ^ 2 • (A.toMatrixᵀ * A.toMatrix) + s.damping • 1)) (x : Mat K n 1)
    (steps : ℕ) :
    s.iterate (linearOf (A.reordered σ τ) (b.reordered σ 1) k) ⟨x.reordered τ 1⟩ steps =
      (s.iterate (linearOf A b k) ⟨x⟩ steps).map
        (List.map (Outcome.map id (Grid.reordered · τ))) := by
  induction steps generalizing x with
  | zero => rfl
  | succ steps ih =>
    rw [iterate_succ, iterate_succ, step_linearOf_reordered hn hD]
    cases hstep : s.step (linearOf A b k) ⟨x⟩ with
    | error e => rfl
    | ok r =>
      obtain ⟨y, hy⟩ := Grid.exists_eq_mk_of_shape_eq (shape_of_step hstep)
      have hpoint : (Recorded.map id (Grid.reordered · τ) r).outcome.x = ⟨y.reordered τ 1⟩ := by
        rw [← Grid.reordered_mk, ← hy]
        rfl
      simp only [Except.map, ok_bind, hpoint, hy, ih y]
      cases s.iterate (linearOf A b k) ⟨y⟩ steps <;> rfl

/-- A run on the problem with its equations in another order is the same run. -/
lemma iterate_linearOf_equations (hn : 0 < n)
    (hD : IsUnit (k ^ 2 • (A.toMatrixᵀ * A.toMatrix) + s.damping • 1)) (x : Mat K n 1)
    (steps : ℕ) :
    s.iterate (linearOf (A.reordered σ 1) (b.reordered σ 1) k) ⟨x⟩ steps =
      s.iterate (linearOf A b k) ⟨x⟩ steps := by
  have hrun := iterate_linearOf_reordered (b := b) (σ := σ) (τ := 1) hn hD x steps
  have hid : Outcome.map id (Grid.reordered · (1 : Equiv.Perm (Fin n))) =
      (id : Outcome K K → Outcome K K) := by
    funext o
    simp [Outcome.map, Grid.reordered_one]
  rw [Mat.reordered_one, hid, List.map_id_fun] at hrun
  rw [hrun]
  cases s.iterate (linearOf A b k) ⟨x⟩ steps <;> rfl

/-- The order of the equations has no effect on a run on a linear problem, and with its parameters
in another order the run passes through the reordered points, with the same errors, scales and
numbers of trials. Over an Archimedean field these runs return. -/
theorem iterate_linear_reordered [IsStrictOrderedRing K] (s : Descent K) (A : Mat K m n)
    (b : Mat K m 1) (k : K) (x : Mat K n 1) (steps : ℕ) (hn : 0 < n)
    (hD : IsUnit (k ^ 2 • (A.toMatrixᵀ * A.toMatrix) + s.damping • 1)) :
    ∃ p : Problem K, Problem.linear ⟨A⟩ ⟨b⟩ k = .ok p ∧
      (∀ σ, ∃ p', Problem.linear ⟨A.reordered σ 1⟩ ⟨b.reordered σ 1⟩ k = .ok p' ∧
        s.iterate p' ⟨x⟩ steps = s.iterate p ⟨x⟩ steps) ∧
      (∀ τ, ∃ p', Problem.linear ⟨A.reordered 1 τ⟩ ⟨b⟩ k = .ok p' ∧
        s.iterate p' ⟨x.reordered τ 1⟩ steps =
          (s.iterate p ⟨x⟩ steps).map (List.map (Outcome.map id (Grid.reordered · τ)))) ∧
      (∀ os, s.iterate p ⟨x⟩ steps = .ok os → ∀ o ∈ os, o.x.shape = ⟨n, 1⟩) ∧
      (Archimedean K → ∃ os, s.iterate p ⟨x⟩ steps = .ok os) := by
  refine ⟨linearOf A b k, linear_mk, fun σ => ⟨_, linear_mk, iterate_linearOf_equations hn hD x _⟩,
    fun τ => ⟨_, linear_mk, ?_⟩, fun os hos => (iterate_eq_ok_iff.mp hos).2.shape_eq,
    fun _ => exists_iterate_linearOf hn hD x steps⟩
  have hrun := iterate_linearOf_reordered (b := b) (σ := 1) (τ := τ) hn hD x steps
  rwa [Mat.reordered_one] at hrun

/-- Two equations, the second of which has one parameter more. -/
def triangular : Mat ℚ 2 2 := .ofFn fun i j => if j ≤ i then 1 else 0

/-- Both orders of `triangular` turned around. -/
theorem iterate_linear_reordered_swap :
    ∃ (p p' p'' : Problem ℚ) (os : List (Outcome ℚ ℚ)),
      Problem.linear ⟨triangular⟩ ⟨onceAndTwice⟩ 1 = .ok p ∧
      Problem.linear ⟨triangular.reordered (Equiv.swap 0 1) 1⟩
        ⟨onceAndTwice.reordered (Equiv.swap 0 1) 1⟩ 1 = .ok p' ∧
      Problem.linear ⟨triangular.reordered 1 (Equiv.swap 0 1)⟩ ⟨onceAndTwice⟩ 1 = .ok p'' ∧
      halvingDamped.iterate p ⟨onceAndTwice⟩ 3 = .ok os ∧
      halvingDamped.iterate p' ⟨onceAndTwice⟩ 3 = .ok os ∧
      halvingDamped.iterate p'' ⟨onceAndTwice.reordered (Equiv.swap 0 1) 1⟩ 3 =
        .ok (os.map (Outcome.map id (Grid.reordered · (Equiv.swap (0 : Fin 2) 1)))) := by
  obtain ⟨p, hp, hequations, hparameters, -, hreturns⟩ := iterate_linear_reordered halvingDamped
    triangular onceAndTwice 1 onceAndTwice 3 two_pos
    (isUnit_damped (β := halvingDamped.damping) one_pos)
  obtain ⟨p', hp', hrun'⟩ := hequations (Equiv.swap 0 1)
  obtain ⟨p'', hp'', hrun''⟩ := hparameters (Equiv.swap 0 1)
  obtain ⟨os, hos⟩ := hreturns inferInstance
  exact ⟨p, p', p'', os, hp, hp', hp'', hos, hrun'.trans hos, by rw [hrun'', hos]; rfl⟩

end Descent

end Workforce
