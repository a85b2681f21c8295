import Workforce.Proofs.Descent.Runs
import Workforce.Proofs.Mat.Summation
import Workforce.Proofs.Number.NonFinite

/-!
# Steps that overflow

An infinite or undefined parameter makes all residuals of a linear problem infinite or undefined,
even those that do not depend on it, since its product with zero is undefined. The sum of their
squares then is not below any error, and so no step ends at such a point. In which order the
residuals are summed, and whether products are rounded before they are added, makes no difference.
-/

namespace Workforce

variable {α : Type} {m n : ℕ}

/-! ### Squared norms -/

namespace Mat

lemma isSquareSum_normSquared (F : Mat Float32 m n) : Single.IsSquareSum F.normSquared := by
  refine (addsUp_sumPairwise (· + ·) (F.entries.map fun a => a * a)).of_forall_mem
    (Q := Single.IsSquareSum) Single.isSquareSum_zero (fun _ _ => .add) (fun _ => id)
    (fun _ _ => .add) ?_
  simp only [List.forall_mem_map]
  exact fun a _ => Single.isSquareSum_mul_self a

/-- A finite squared norm is one of finite entries. -/
lemma isFinite_of_normSquared {F : Mat Float32 m n} (h : F.normSquared.isFinite = true) :
    F.isFinite = true := by
  refine List.all_eq_true.mpr fun a ha => ?_
  have hsquares := (addsUp_sumPairwise (· + ·) (F.entries.map fun a => a * a)).forall_mem
    (P := fun a : Float32 => a.isFinite = true) (Q := fun a => a.isFinite = true)
    (fun _ _ => Single.isFinite_of_isFinite_add) (fun _ => id)
    (fun _ _ => Single.isFinite_of_isFinite_add) h
  exact (Single.isFinite_of_isFinite_mul (hsquares _ (List.mem_map_of_mem ha))).1

end Mat

namespace Problem

/-- The residuals of a problem are those of `A x - b`. Each sum of products may be taken in any
order, and each product may be rounded on its own or together with the sum that it is added to. -/
def IsLinear (p : Problem Float32) (A b : Grid Float32) : Prop :=
  ∀ x f, p.residual x = .ok f →
    ∃ (k : ℕ) (X : Mat Float32 A.cols k) (B F : Mat Float32 A.rows k),
      x = ⟨X⟩ ∧ b = ⟨B⟩ ∧ f = ⟨F⟩ ∧ ∀ i j, ∃ s,
        AddsUp (fun ab => ab.1 * ab.2) (fun ab s => Single.fusedMulAdd ab.1 ab.2 s)
          ((List.finRange A.cols).map fun l => (A.body.get i l, X.get l j)) s ∧
        F.get i j = s - B.get i j

/-- The linear problem sums products that are rounded, from left to right. -/
lemma isLinear_linear {A b : Grid Float32} {k : Float32} {p : Problem Float32}
    (h : linear A b k = .ok p) : p.IsLinear A b := by
  unfold linear at h
  split_ifs at h
  cases h
  intro x f hf
  simp only [linearResidual, checked_eq_ok_iff, bind_eq_ok_iff] at hf
  obtain ⟨y, hy, hf⟩ := hf
  rw [Grid.mul] at hy
  split_ifs at hy with hx
  cases hy
  rw [Grid.sub, Grid.combine] at hf
  split_ifs at hf with hb
  cases hf
  -- the checks of the shapes have passed, so that dimensions can be substituted
  obtain ⟨X⟩ := x
  obtain ⟨B⟩ := b
  obtain ⟨hrows, hcols⟩ := hb
  dsimp only [Grid.rows_mk, Grid.cols_mk] at hx hrows hcols
  subst hx hrows hcols
  exact ⟨_, X, B, _, rfl, rfl, rfl, fun i j => ⟨_, addsUp_sumFin .., by simp⟩⟩

variable {p : Problem Float32} {A b x f : Grid Float32}

/-- Finite residuals are those of finite parameters, if there is any equation. -/
lemma IsLinear.isFinite_of_residual (hp : p.IsLinear A b) (hA : 0 < A.rows)
    (h : p.residual x = .ok f) (hf : f.body.isFinite = true) : x.body.isFinite = true := by
  obtain ⟨k, X, B, F, rfl, rfl, rfl, hF⟩ := hp x f h
  refine Mat.isFinite_iff.mpr fun l j => ?_
  obtain ⟨s, hs, hFs⟩ := hF ⟨0, hA⟩ j
  have hentry : (F.get ⟨0, hA⟩ j).isFinite = true := Mat.isFinite_iff.mp hf ⟨0, hA⟩ j
  rw [hFs] at hentry
  have hsum : s.isFinite = true := (Single.isFinite_of_isFinite_sub hentry).1
  have hfactors := hs.forall_mem (P := fun a : Float32 => a.isFinite = true)
    (Q := fun ab => ab.2.isFinite = true) (fun _ _ => Single.isFinite_of_isFinite_add)
    (fun _ h => (Single.isFinite_of_isFinite_mul h).2)
    (fun _ _ h => (Single.isFinite_of_isFinite_fusedMulAdd h).2) hsum
  have hparameter : (X.get l j).isFinite = true :=
    hfactors (A.body.get ⟨0, hA⟩ l, X.get l j) (List.mem_map.mpr ⟨l, List.mem_finRange l, rfl⟩)
  exact hparameter

/-! ### Errors -/

variable {y : Grid Float32} {e e' : Quantity}

lemma errorAt_eq_ok_iff : p.errorAt x = .ok e ↔
    ∃ f, p.residual x = .ok f ∧ e = .real (widen f.normSquared) := by
  simp only [errorAt, error, map_eq_ok_iff, Steering.ofEntry]
  constructor
  · rintro ⟨_, ⟨f, hf, rfl⟩, rfl⟩
    exact ⟨f, hf, rfl⟩
  · rintro ⟨f, hf, rfl⟩
    exact ⟨_, ⟨f, hf, rfl⟩, rfl⟩

/-- Without equations there is one error only. -/
lemma IsLinear.not_errorAt_lt_of_rows_eq_zero (hp : p.IsLinear A b) (hA : A.rows = 0)
    (hx : p.errorAt x = .ok e) (hy : p.errorAt y = .ok e') : ¬ e < e' := by
  obtain ⟨f, hf, rfl⟩ := errorAt_eq_ok_iff.mp hx
  obtain ⟨g, hg, rfl⟩ := errorAt_eq_ok_iff.mp hy
  obtain ⟨k, X, B, F, rfl, rfl, rfl, -⟩ := hp x f hf
  obtain ⟨l, Y, C, G, rfl, -, rfl, -⟩ := hp y g hg
  have hnone : ∀ {k : ℕ} (F : Mat Float32 A.rows k), F.entries = [] := by
    intro k F
    refine List.eq_nil_iff_forall_not_mem.mpr fun a ha => ?_
    obtain ⟨i, -⟩ := Mat.mem_entries_iff.mp ha
    exact absurd i.isLt (by omega)
  simp only [Grid.normSquared, Mat.normSquared, hnone]
  exact fun h => float_lt_irrefl _ ((Quantity.lt_real _ _).mp h)

/-- An error that is below another one is finite, and it is the error of finite parameters. -/
lemma IsLinear.isFinite_of_errorAt_lt (hp : p.IsLinear A b) (hx : p.errorAt x = .ok e)
    (hy : p.errorAt y = .ok e') (h : e < e') :
    x.body.isFinite = true ∧ e.toFloat.isFinite = true := by
  have hA : 0 < A.rows :=
    Nat.pos_of_ne_zero fun hA => hp.not_errorAt_lt_of_rows_eq_zero hA hx hy h
  obtain ⟨f, hf, rfl⟩ := errorAt_eq_ok_iff.mp hx
  obtain ⟨g, -, rfl⟩ := errorAt_eq_ok_iff.mp hy
  have hfinite : (widen f.normSquared).isFinite = true :=
    f.body.isSquareSum_normSquared.isFinite_of_lt ((Quantity.lt_real _ _).mp h)
  have hresidual := Mat.isFinite_of_normSquared (isFinite_of_isFinite_widen hfinite)
  exact ⟨hp.isFinite_of_residual hA hf hresidual, hfinite⟩

end Problem

/-! ### Runs -/

/-- The step ends at finite parameters and, if it has moved, at a finite error. -/
def Outcome.IsFinite (o : Outcome Quantity Float32) : Prop :=
  o.x.body.isFinite = true ∧ (o.accepted = true → o.errorAfter.toFloat.isFinite = true)

namespace Descent

variable {s : Descent Quantity} {p : Problem Float32} {A b x : Grid Float32}
variable {r : Recorded Quantity Float32} {os : List (Outcome Quantity Float32)}

section

variable [Inverter Float32]

lemma isFinite_of_step (hp : p.IsLinear A b) (hx : x.body.isFinite = true)
    (h : s.step p x = .ok r) : r.outcome.IsFinite := by
  obtain ⟨hbefore, hafter⟩ := errorAt_of_step h
  cases haccepted : r.outcome.accepted with
  | true =>
    obtain ⟨hpoint, herror⟩ :=
      hp.isFinite_of_errorAt_lt hafter hbefore (decreases_of_step h haccepted)
    exact ⟨hpoint, fun _ => herror⟩
  | false =>
    refine ⟨?_, fun hmoved => absurd (haccepted.symm.trans hmoved) Bool.false_ne_true⟩
    rwa [(stays_of_step h haccepted).1]

lemma Steps.isFinite (hp : p.IsLinear A b) (hx : x.body.isFinite = true) (h : s.Steps p x os) :
    ∀ o ∈ os, o.IsFinite := by
  induction h with
  | nil => simp
  | cons hstep hsteps ih =>
    have hr := isFinite_of_step hp hx hstep
    exact List.forall_mem_cons.mpr ⟨hr, ih hr.1⟩

/-- From finite parameters a run on a linear problem only ever moves to finite parameters at finite
errors, whatever the coefficients are and whatever inverts matrices. The same is true of every other
order of summation. -/
theorem iterate_linear_isFinite (s : Descent Quantity) (A b x : Grid Float32) (n : ℕ)
    (hx : x.body.isFinite = true) :
    (∀ k p os, Problem.linear A b k = .ok p → s.iterate p x n = .ok os → ∀ o ∈ os, o.IsFinite) ∧
      ∀ p os, Problem.IsLinear p A b → s.iterate p x n = .ok os → ∀ o ∈ os, o.IsFinite := by
  have hruns : ∀ p os, Problem.IsLinear p A b → s.iterate p x n = .ok os → ∀ o ∈ os, o.IsFinite :=
    fun p os hp hos => (iterate_eq_ok_iff.mp hos).2.isFinite hp hx
  exact ⟨fun k p os hp => hruns p os (Problem.isLinear_linear hp), hruns⟩

end

/-- The descent without damping that tries the scales `10 ^ 30` and `1`. -/
def steep : Descent Quantity :=
  { fullSteps with
    start := .whole (10 ^ 30)
    shrink := .real 1e-30
    shrink_pos := by decide +kernel
    shrink_lt_one := by decide +kernel
    floor_lt_start := by decide +kernel }

/-- The problem with the residual `x` in one parameter. -/
def distanceToZero : Problem Float32 where
  equations := 1
  parameters := 1
  residual := Problem.linearResidual (.ofColumn [1]) (.ofColumn [0])
  jacobian _ := .ok ((Grid.ofColumn [1]).scale 1)

/-- From `10¹⁵` the first trial overflows, and the second leads to zero. -/
theorem iterate_linear_isFinite_steep :
    ∃ os, steep.iterate distanceToZero (.ofColumn [1e15]) 1 = .ok os ∧
      os.map Outcome.trials = [2] ∧ os.map Outcome.accepted = [true] ∧
      ∀ o ∈ os, o.IsFinite := by
  have hfails : TrialFails distanceToZero (.ofColumn [1e15]) (.ofColumn [-1e15])
      (.real (widen (1e15 * 1e15))) (steep.scaleAt 0) :=
    ⟨.ofColumn [-1 / 0], .real (1 / 0), ⟨1e30, by decide +kernel, by decide +kernel⟩,
      by decide +kernel, by decide +kernel⟩
  have hstep : steep.step distanceToZero (.ofColumn [1e15]) =
      .ok ⟨⟨.ofColumn [0], .real (widen (1e15 * 1e15)), .real 0, some (steep.scaleAt 1), 2⟩,
        [.accepted (steep.scaleAt 1) 2 (.real (widen (1e15 * 1e15))) (.real 0)]⟩ := by
    refine step_eq_ok_iff.mpr ⟨rfl, .real (widen (1e15 * 1e15)), .ofColumn [-1e15],
      by decide +kernel, by decide +kernel, ?_⟩
    exact .accepted (k := 1) (FailsUpTo.succ (by simp [FailsUpTo]) (by decide +kernel) hfails)
      (by decide +kernel) ⟨1, by decide +kernel, by decide +kernel⟩ (by decide +kernel)
      (by decide +kernel)
  have hrun := iterate_eq_ok_iff.mpr ⟨rfl, .cons hstep .nil⟩
  have hfinite : (Grid.ofColumn [(1e15 : Float32)]).body.isFinite = true := by decide +kernel
  obtain ⟨hruns, -⟩ := iterate_linear_isFinite steep (.ofColumn [1]) (.ofColumn [0])
    (.ofColumn [1e15]) 1 hfinite
  exact ⟨_, hrun, rfl, rfl, hruns 1 distanceToZero _ rfl hrun⟩

end Descent

end Workforce
