import Workforce.Proofs.Descent.Direction
import Workforce.Proofs.Descent.Runs
import Workforce.Proofs.Descent.Termination

/-!
# Failures of a descent

A problem that can be evaluated wherever the number of parameters is right leaves a run two ways to
fail: a normal matrix that is not inverted, and a line search that does not end.
-/

namespace Workforce

variable {α σ : Type}

/-- A problem has residuals and a Jacobian of the right shapes at all parameters of the right
shape. -/
structure Problem.IsTotal (p : Problem α) : Prop where
  exists_residual (x : Mat α p.parameters 1) : ∃ f : Mat α p.equations 1, p.residual ⟨x⟩ = .ok ⟨f⟩
  exists_jacobian (x : Mat α p.parameters 1) :
    ∃ J : Mat α p.equations p.parameters, p.jacobian ⟨x⟩ = .ok ⟨J⟩

namespace Problem

variable [Zero α] [Add α] [Mul α]

/-- A linear problem whose right hand side is a column is total. -/
lemma exists_linear [Sub α] {m n : ℕ} (A : Mat α m n) (b : Mat α m 1) (k : α) :
    ∃ p, linear ⟨A⟩ ⟨b⟩ k = .ok p ∧ p.parameters = n ∧ p.IsTotal := by
  refine ⟨_, if_pos rfl, rfl, fun x => ?_, fun x => ⟨A.scale k, rfl⟩⟩
  exact ⟨A * x - b, by simp [linearResidual]⟩

variable [Steering σ α] {p : Problem α}

lemma IsTotal.exists_errorAt (hp : p.IsTotal) (x : Mat α p.parameters 1) :
    ∃ e : σ, p.errorAt ⟨x⟩ = .ok e := by
  obtain ⟨f, hf⟩ := hp.exists_residual x
  exact ⟨Steering.ofEntry (Grid.normSquared ⟨f⟩), by simp [errorAt, error, hf, Except.map]⟩

variable [One α] [Neg α] [Inverter α] {β : σ}

/-- A total problem has a direction wherever its damped normal matrix is inverted. -/
lemma IsTotal.direction_cases (hp : p.IsTotal) {k : α} (hβ : entryOf β = .ok k)
    (x : Mat α p.parameters 1) :
    (∃ d : Mat α p.parameters 1, p.direction β ⟨x⟩ = .ok ⟨d⟩) ∨
      ∃ (D : Mat α p.parameters p.parameters) (e : InversionError), D.invert = .error e ∧
        p.direction β ⟨x⟩ = .error (.inversion e) := by
  obtain ⟨f, hf⟩ := hp.exists_residual x
  obtain ⟨J, hJ⟩ := hp.exists_jacobian x
  cases hD : (J.normal k).invert with
  | ok X => exact .inl ⟨_, direction_eq_ok hβ hJ hf hD⟩
  | error e => exact .inr ⟨_, e, hD, direction_eq_error hβ hJ hD⟩

end Problem

namespace Descent

variable [Zero α] [Add α] [Mul α] [Steering σ α]
variable [Zero σ] [One σ] [Mul σ] [LT σ] {s : Descent σ} {p : Problem α}

/-- Every scale of a line search can be rounded to an entry. -/
def HasEntries (α : Type) [Steering σ α] (s : Descent σ) : Prop :=
  ∀ i, ∃ k : α, entryOf (s.scaleAt i) = .ok k

lemma exists_trial (hp : p.IsTotal) (hs : s.HasEntries α) (x d : Mat α p.parameters 1) (i : ℕ) :
    ∃ (x' : Mat α p.parameters 1) (e : σ), Moved ⟨x⟩ ⟨d⟩ (s.scaleAt i) ⟨x'⟩ ∧
      p.errorAt ⟨x'⟩ = .ok e := by
  obtain ⟨k, hk⟩ := hs i
  obtain ⟨e, he⟩ := hp.exists_errorAt (σ := σ) (x + d.scale k)
  exact ⟨x + d.scale k, e, ⟨k, hk, by simp [Grid.scale]⟩, he⟩

variable [LE σ] [BEq σ] [DecidableLT σ] [DecidableLE σ]

/-- A line search whose trials can all be evaluated returns, unless it has no end. -/
lemma search_cases (hp : p.IsTotal) (hs : s.HasEntries α) (x d : Mat α p.parameters 1)
    (error : σ) :
    (∃ r, s.search p ⟨x⟩ ⟨d⟩ error = .ok r ∧
      ∃ x' : Mat α p.parameters 1, r.outcome.x = ⟨x'⟩) ∨
      s.search p ⟨x⟩ ⟨d⟩ error = .error .endless ∧
        s.search? p ⟨x⟩ ⟨d⟩ error s.start 0 = none := by
  by_cases hnone : s.search? p ⟨x⟩ ⟨d⟩ error s.start 0 = none
  · exact .inr ⟨by rw [search, hnone]; rfl, hnone⟩
  rw [search?_eq_none_iff_forall] at hnone
  obtain ⟨k, hk, hfails⟩ := exists_failsUpTo_of_not_forall hnone
  by_cases hle : s.floor ≤ s.scaleAt k
  · obtain ⟨x', e, hmoved, he⟩ := exists_trial hp hs x d k
    by_cases hlt : e < error
    · exact .inl ⟨_, search_eq_ok_iff.mpr (.accepted hfails hle hmoved he hlt), x', rfl⟩
    · exact absurd ⟨hle, _, e, hmoved, he, hlt⟩ hk
  · exact .inl ⟨_, search_eq_ok_iff.mpr (.exhausted hfails hle), x, rfl⟩

variable [One α] [Neg α] [Inverter α]

/-- The ways for a run to fail: a matrix is not inverted, or a line search does not end. -/
inductive FailsWith (s : Descent σ) (p : Problem α) : SolveError → Prop where
  | inversion {D : Mat α p.parameters p.parameters} {e : InversionError}
      (invert_eq : D.invert = .error e) : FailsWith s p (.inversion e)
  | endless {x d : Grid α} {error : σ} (search_eq : s.search? p x d error s.start 0 = none) :
      FailsWith s p .endless

variable {k : α}

lemma step_cases (hp : p.IsTotal) (hβ : entryOf s.damping = .ok k) (hs : s.HasEntries α)
    (x : Mat α p.parameters 1) :
    (∃ r, s.step p ⟨x⟩ = .ok r ∧ ∃ x' : Mat α p.parameters 1, r.outcome.x = ⟨x'⟩) ∨
      ∃ e, s.step p ⟨x⟩ = .error e ∧ s.FailsWith p e := by
  obtain ⟨error, herror⟩ := hp.exists_errorAt (σ := σ) x
  rw [step_eq_bind rfl herror]
  obtain ⟨d, hd⟩ | ⟨D, e, hD, he⟩ := hp.direction_cases hβ x
  · rw [hd, ok_bind]
    obtain hr | ⟨hendless, hnone⟩ := search_cases hp hs x d error
    · exact .inl hr
    · exact .inr ⟨_, hendless, .endless hnone⟩
  · rw [he]
    exact .inr ⟨_, rfl, .inversion hD⟩

/-- A run of a total problem returns, or it fails in one of two ways. -/
lemma iterate_cases (hp : p.IsTotal) (hβ : entryOf s.damping = .ok k) (hs : s.HasEntries α)
    {x : Grid α} (hx : x.shape = ⟨p.parameters, 1⟩) (n : ℕ) :
    (∃ os, s.iterate p x n = .ok os) ∨
      ∃ e, s.iterate p x n = .error e ∧ s.FailsWith p e := by
  induction n generalizing x with
  | zero => exact .inl ⟨[], iterate_zero⟩
  | succ n ih =>
    obtain ⟨X⟩ := x
    cases hx
    rw [iterate_succ]
    obtain ⟨r, hr, x', hx'⟩ | ⟨e, he, hfails⟩ := step_cases hp hβ hs X
    · have hnext := ih (x := r.outcome.x) (by rw [hx']; rfl)
      rw [hr, ok_bind]
      obtain ⟨os, hos⟩ | ⟨e, he, hfails⟩ := hnext
      · exact .inl ⟨r.outcome :: os, by rw [hos]; rfl⟩
      · exact .inr ⟨e, by rw [he]; rfl, hfails⟩
    · exact .inr ⟨e, by rw [he]; rfl, hfails⟩

end Descent

/-! ### Numbers of steps -/

namespace Literal

variable {n : ℤ}

lemma steps_whole (h : 0 ≤ n) : (Literal.number (.whole n)).steps = .ok n.toNat := by
  have hnegative : ¬ Quantity.whole n < 0 := mt (Quantity.lt_whole n 0).mp (not_lt.mpr h)
  simp [steps, quantityBelow, hnegative, Quantity.toInt?]

lemma steps_whole_of_neg (h : n < 0) :
    (Literal.number (.whole n)).steps = .error (.negativeSteps (.whole n)) := by
  have hnegative : Quantity.whole n < 0 := (Quantity.lt_whole n 0).mpr h
  simp [steps, quantityBelow, hnegative]

end Literal

/-! ### Single precision -/

lemma entryOf_of_fits {q : Quantity} (h : q.fits = true) :
    (entryOf q : Except SolveError Float32) = .ok (narrow q.toFloat) := by
  simp [entryOf, Steering.toEntry, h]

/-- A matrix with entries that is not inverted is singular, or infinite or undefined when scaled. -/
lemma Mat.isSingular_or_eq_notFinite [LinearSolver Float32] {n : ℕ} (hn : 0 < n)
    {D : Mat Float32 n n} {e : InversionError} (h : D.invert = .error e) :
    e.isSingular = true ∨ e = .notFinite := by
  change invertWith LinearSolver.solveIdentity D = .error e at h
  obtain ⟨line, -, hline⟩ | ⟨E, -, ⟨-, hnotFinite⟩ | ⟨-, ⟨e', hunsolved⟩ | hoverflow |
    ⟨X, hX, -⟩⟩⟩ := invertWith_cases LinearSolver.solveIdentity D hn
  · cases h.symm.trans hline
    exact .inl rfl
  · cases h.symm.trans hnotFinite
    exact .inr rfl
  · cases h.symm.trans hunsolved
    exact .inl rfl
  · cases h.symm.trans hoverflow
    exact .inl rfl
  · cases h.symm.trans hX

namespace Descent

variable {s : Descent Quantity} {damping start shrink floor : Float}

/-- The scales of a line search with binary64 parameters are binary64 numbers. -/
lemma hasEntries_of_real (h : Parameters.descent ⟨.real damping, .real start, .real shrink,
    .real floor⟩ = .ok s) : s.HasEntries Float32 := by
  obtain ⟨-, hstart, hshrink, -⟩ := eq_of_descent_real h
  intro i
  rw [scaleAt_eq_real hstart hshrink]
  exact ⟨_, entryOf_of_fits rfl⟩

/-- With binary64 parameters, a run of a total problem fails for a matrix that is singular or out of
range, or in a line search that may be endless: its first scale is infinite, or its floor is not
above the least normal number and its factor above one half. -/
lemma FailsWith.cases_of_real [LinearSolver Float32] {p : Problem Float32} {e : SolveError}
    (hf : s.FailsWith p e)
    (h : Parameters.descent ⟨.real damping, .real start, .real shrink, .real floor⟩ = .ok s)
    (hp : 0 < p.parameters) :
    (∃ e', e = .inversion e' ∧ (e'.isSingular = true ∨ e' = .notFinite)) ∨
      e = .endless ∧ ¬ (start.isFinite = true ∧ (leastNormal < floor ∨ shrink ≤ 0.5)) := by
  cases hf with
  | inversion invert_eq => exact .inl ⟨_, rfl, Mat.isSingular_or_eq_notFinite hp invert_eq⟩
  | @endless x d error search_eq =>
    refine .inr ⟨rfl, fun ⟨hfinite, hdecreases⟩ => ?_⟩
    obtain ⟨-, hends⟩ := search?_eq_none_iff h p x d error
    simpa [search_eq] using hends hfinite hdecreases

end Descent

end Workforce
