import Workforce.Proofs.Descent.Damping
import Workforce.Proofs.Market.Cap

/-!
# Damping decides whether a tick is refused

The labor system has four equations in five unknowns, so without damping its normal matrix is
singular in every state of a market, and with damping it never is. With exact arithmetic a tick is
refused for a singular matrix exactly when its descent is not damped.
-/

namespace Workforce.Market

open Matrix

variable {K : Type} [Field K] [LinearOrder K]
variable {m m' : Market K K} {solve : Solver K K} {e : MarketError}

/-! ### Solvers that fail and solvers that return -/

/-- The solver of a market with every labor is given a linear problem with four equations in five
unknowns, and a starting point. -/
lemma HasEveryLabor.exists_linearOf (h : m.HasEveryLabor) :
    ∃ (A : Mat K 4 5) (b : Mat K 4 1) (x : Mat K 5 1), ∀ solve : Solver K K,
      m.solveSystem solve =
        (do
          let steps ← solve (linearOf A b m.plan.jacobianScale) ⟨x⟩
          pure (Outcome.lastPoint ⟨x⟩ steps, steps)) := by
  obtain ⟨⟨A, b, x⟩, hsystem⟩ : ∃ s, m.system = .ok s := ⟨_, h.system_eq_ok⟩
  refine ⟨A, b, x, fun solve => ?_⟩
  rw [solveSystem, hsystem]
  rfl

lemma workforceFactor_eq_error (h : m.workforceFactor = .error e) :
    e = .divisionByZero ∧ m.population < m.totalLaborers ∧ m.totalLaborers = 0 := by
  rw [workforceFactor] at h
  -- the factor divides only where there are more laborers than people
  split_ifs at h with hlt hzero
  · cases h
    exact ⟨rfl, hlt, by simpa using hzero⟩
  · cases h
  · cases h

/-- A tick whose solver returns is refused only where a negative population would be divided among
no laborers. -/
lemma tickWith_of_solveSystem {x : Grid K} {steps : List (Outcome K K)}
    (h : m.deriveAvailable.deriveLaborValues.solveSystem solve = .ok (x, steps))
    (he : (m.tickWith solve).2 = .error e) : e = .divisionByZero ∧ m.population < 0 := by
  simp only [tickWith, redistributeWith, h] at he
  cases hfactor : (m.deriveAvailable.deriveLaborValues.allocate x).workforceFactor with
  | ok factor => simp [hfactor] at he
  | error e' =>
    obtain ⟨rfl, hlt, hzero⟩ := workforceFactor_eq_error hfactor
    rw [hzero] at hlt
    simp only [hfactor, Except.error.injEq] at he
    exact ⟨he.symm, hlt⟩

/-- Unless the population is negative, a tick is refused only where its solver refuses. -/
lemma exists_solve_eq_error_of_tickWith (h : m.HasEveryLabor) (hpopulation : 0 ≤ m.population)
    (he : (m.tickWith solve).2 = .error e) : ∃ p x, solve p x = .error e := by
  have hderived : m.deriveAvailable.deriveLaborValues.HasEveryLabor := h
  obtain ⟨A, b, x, hsystem⟩ := hderived.exists_linearOf
  specialize hsystem solve
  cases hsolve :
      solve (linearOf A b m.deriveAvailable.deriveLaborValues.plan.jacobianScale) ⟨x⟩ with
  | error e' =>
    rw [hsolve] at hsystem
    have htick : (m.tickWith solve).2 = .error e' := tickWith_eq_error hsystem
    rw [he, Except.error.injEq] at htick
    exact ⟨_, _, htick ▸ hsolve⟩
  | ok steps =>
    rw [hsolve] at hsystem
    obtain ⟨-, hnegative⟩ := tickWith_of_solveSystem hsystem he
    exact absurd hpopulation hnegative.not_ge

/-! ### Ticks -/

variable [IsStrictOrderedRing K] [Archimedean K] [Inverter K] [ExactInverter K]

/-- A tick of at least one step, in any state of a market with every labor. Without damping it is
refused for a singular matrix. With damping its solver never fails, and the tick returns unless the
population is negative. -/
theorem tick_singular_unless_damped (m : Market K K) (hlabors : m.HasEveryLabor) {n : ℕ}
    (hsteps : m.plan.steps.steps = .ok n) (hn : 0 < n) :
    (m.plan.descent.damping = 0 →
      ∃ e, m.tick.2 = .error (.solve (.inversion e)) ∧ e.isSingular = true) ∧
    (0 < m.plan.descent.damping →
      (∀ e, m.tick.2 ≠ .error (.solve e)) ∧
      (0 ≤ m.population → ∃ report, m.tick.2 = .ok report)) := by
  -- the derived goods and labor values leave the laborers and the plan
  have hderived : m.deriveAvailable.deriveLaborValues.HasEveryLabor := hlabors
  have hplan : m.deriveAvailable.deriveLaborValues.plan = m.plan := rfl
  obtain ⟨A, b, x, hsystem⟩ := hderived.exists_linearOf
  have hplanned (p : Problem K) (x : Grid K) :
      planned m.plan p x = (m.plan.descent.iterate p x n).mapError .solve := by
    rw [planned, hsteps]
    rfl
  specialize hsystem (planned m.plan)
  rw [hplanned, hplan] at hsystem
  constructor
  -- four equations do not determine five unknowns: the normal matrix of a wide system is singular,
  -- and without damping it is all that the first step inverts
  · intro hundamped
    have hD : ¬ IsUnit (m.plan.jacobianScale ^ 2 • (A.toMatrixᵀ * A.toMatrix) +
        m.plan.descent.damping • 1) := by
      rw [hundamped]
      exact not_isUnit_undamped_of_lt (by decide)
    obtain ⟨e, he, hsingular⟩ :=
      Descent.iterate_linearOf_eq_error (b := b) (by decide) hD x hn
    exact ⟨e, tickWith_eq_error (hsystem.trans (by rw [he]; rfl)), hsingular⟩
  -- damping makes the normal matrix positive definite, so every step returns
  · intro hdamped
    obtain ⟨os, hos⟩ := Descent.exists_iterate_linearOf (A := A) (b := b)
      (k := m.plan.jacobianScale) (by decide) (isUnit_damped hdamped) x n
    have hsolved : m.deriveAvailable.deriveLaborValues.solveSystem (planned m.plan) =
        .ok (Outcome.lastPoint ⟨x⟩ os, os) := hsystem.trans (by rw [hos]; rfl)
    refine ⟨fun e he => ?_, fun hpopulation => ?_⟩
    · obtain ⟨he, -⟩ := tickWith_of_solveSystem hsolved he
      cases he
    -- a tick whose solver returns can only fail when laborers are rescaled
    · cases htick : m.tick.2 with
      | ok report => exact ⟨report, rfl⟩
      | error e =>
        obtain ⟨-, hlt⟩ := tickWith_of_solveSystem hsolved htick
        exact absurd hpopulation hlt.not_ge

/-- The town of ten, with a descent of three steps. -/
def townDescending (s : Descent ℚ) : Market ℚ ℚ :=
  { townOfTen with plan := { townOfTen.plan with steps := .whole 3, descent := s } }

/-- The same town is refused a tick without damping, and has one with it. -/
theorem tick_singular_unless_damped_townOfTen :
    (∃ e, (townDescending .halving).tick.2 = .error (.solve (.inversion e)) ∧
      e.isSingular = true) ∧
    ∃ report, (townDescending .halvingDamped).tick.2 = .ok report := by
  have hlabors (s : Descent ℚ) : (townDescending s).HasEveryLabor := fun l => Labor.mem_all l
  have hsteps (s : Descent ℚ) : (townDescending s).plan.steps.steps = .ok 3 := by rfl
  refine ⟨(tick_singular_unless_damped _ (hlabors _) (hsteps _) (by decide)).1 rfl, ?_⟩
  exact ((tick_singular_unless_damped _ (hlabors _) (hsteps _) (by decide)).2 one_pos).2
    (by norm_num [townDescending, townOfTen])

end Workforce.Market
