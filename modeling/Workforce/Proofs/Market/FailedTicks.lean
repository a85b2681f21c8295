import Workforce.Proofs.Market.Carried
import Workforce.Proofs.Market.Failures
import Workforce.Proofs.Settings.Bounds

/-!
# Failed ticks

A tick moves laborers only after its solver has answered. What can still fail then is the division
of the population among the laborers, and it does not fail for a population that is not negative. So
a failed tick leaves the allocation and what was recorded of earlier ticks. What it has derived
before it failed was derived from the same laborers.
-/

namespace Workforce

namespace Quantity

/-- A number that is at least zero is not below it. -/
lemma not_lt_zero_of_zero_le {q : Quantity} (h : 0 ≤ q) : ¬ q < 0 := by
  cases q with
  | flag b => cases b <;> decide
  | whole n => exact fun hlt => absurd ((le_whole 0 n).mp h) (not_le.mpr ((lt_whole n 0).mp hlt))
  | real x => exact not_lt_of_whole_le h

end Quantity

namespace Market

variable {σ α : Type}
variable [Zero σ] [One σ] [Add σ] [Mul σ] [Div σ] [LT σ] [DecidableLT σ] [BEq σ] [OfScientific σ]
variable [Steering σ α] {m m' : Market σ α} {e : MarketError}
variable [Zero α] [Add α] [Sub α] [Mul α] {solve : Solver σ α}

/-- Moving laborers fails in the solver, before any of them has moved, or in the division of the
population, after that. -/
lemma redistributeWith_eq_error (h : m.redistributeWith solve = (m', .error e)) :
    (m.solveSystem solve = .error e ∧ m' = m) ∨
      ∃ x, (m.allocate x).workforceFactor = .error e ∧ m' = m.allocate x := by
  rw [redistributeWith] at h
  cases hsolve : m.solveSystem solve with
  | error e' =>
    simp only [hsolve, Prod.mk.injEq, Except.error.injEq] at h
    obtain ⟨rfl, rfl⟩ := h
    exact .inl ⟨rfl, rfl⟩
  | ok solution =>
    obtain ⟨x, steps⟩ := solution
    cases hfactor : (m.allocate x).workforceFactor with
    | ok factor => simp [hsolve, hfactor] at h
    | error e' =>
      simp only [hsolve, hfactor, Prod.mk.injEq, Except.error.injEq] at h
      obtain ⟨rfl, rfl⟩ := h
      exact .inr ⟨x, hfactor, rfl⟩

lemma tickWith_eq_error_iff : m.tickWith solve = (m', .error e) ↔
    m.round.redistributeWith solve = (m', .error e) := by
  rw [tickWith, round]
  cases hmoved : m.deriveAvailable.deriveLaborValues.redistributeWith solve with
  | mk m₁ result => cases result <;> simp

/-- Where the population can always be divided, a tick that fails has derived its round and done
nothing else. -/
lemma eq_round_of_tickWith
    (hfactor : ∀ x, ∃ factor, (m.round.allocate x).workforceFactor = .ok factor)
    (h : m.tickWith solve = (m', .error e)) : m' = m.round := by
  obtain ⟨-, hround⟩ | ⟨x, he, -⟩ := redistributeWith_eq_error (tickWith_eq_error_iff.mp h)
  · exact hround
  · obtain ⟨factor, hok⟩ := hfactor x
    rw [he] at hok
    cases hok

end Market

namespace Request

open Market

variable {s s' : Session} {solve : Solver Quantity Float32} {e : RequestError}

/-! ### Phases that fail -/

lemma supplied_eq_error (h : supplied s = (s', .error e)) :
    ∃ labors, s' = { s with town := s.town.deriveProductivity labors } := by
  rw [supplied] at h
  cases hlabors : derivedBefore? s.town with
  | some labors =>
    simp only [hlabors, Prod.mk.injEq] at h
    exact ⟨labors, h.1.symm⟩
  | none =>
    cases hdemand : s.population.mul (.real 0.5) with
    | error e' =>
      simp only [hlabors, hdemand, Prod.mk.injEq] at h
      exact ⟨Labor.all, h.1.symm⟩
    | ok demand => simp [hlabors, hdemand] at h

/-- A population from which the demand for food can be derived is in range. -/
lemma fits_population_of_supplied (hnumber : s.unnumbered = none)
    (h : supplied s = (s', .ok ())) : s.town.population.fits = true := by
  have hpopulation : s.population = .number s.town.population := by
    rw [Session.population, hnumber, Option.getD_none]
  rw [supplied, hpopulation] at h
  cases hlabors : derivedBefore? s.town with
  | some labors => simp [hlabors] at h
  | none =>
    cases hq : s.town.population with
    | flag b => rfl
    | real x => rfl
    | whole n =>
      by_contra hfits
      rw [hq] at h
      simp [hlabors, Literal.mul, Literal.combine, Quantity.combines, hfits] at h

/-! ### Ticks -/

/-- A population in range that is not negative can be divided among any laborers. -/
lemma exists_workforceFactor_eq_ok {t : Town} (hfits : t.population.fits = true)
    (hpopulation : 0 ≤ t.population) : ∃ factor, t.workforceFactor = .ok factor := by
  obtain ⟨y, hy⟩ | ⟨-, hnegative⟩ := workforceFactor_cases (t := t) hfits
  · exact ⟨_, hy⟩
  · exact absurd hnegative (Quantity.not_lt_zero_of_zero_le hpopulation)

/-- A tick fails in one of the phases or in the solver, and keeps what was derived before that. -/
lemma tickedWith_eq_error (hnumber : s.unnumbered = none) (hpopulation : 0 ≤ s.town.population)
    (h : tickedWith solve s = (s', .error e)) :
    (∃ labors, s' = { s with town := s.town.deriveProductivity labors }) ∨
      s' = { s with town := s.town.deriveAvailable } ∨ s' = { s with town := s.town.round } := by
  obtain ⟨e', he'⟩ | hsupplied := supplied_cases s
  · have hs' : (supplied s).1 = s' :=
      congrArg Prod.fst ((tickedWith_of_error solve he').symm.trans h)
    exact .inl (supplied_eq_error (Prod.ext hs' he'))
  · rw [tickedWith_of_supplied solve hsupplied] at h
    cases hvalued : inRange (valueNumbers s.town.deriveAvailable) with
    | error e' =>
      simp only [hvalued, Prod.mk.injEq] at h
      exact .inr (.inl h.1.symm)
    | ok _ =>
      simp only [hvalued, Prod.mk.injEq] at h
      obtain ⟨rfl, he⟩ := h
      have hfits := fits_population_of_supplied hnumber hsupplied
      -- the laborers can be rescaled whatever the solution is, so only the solver is left to fail
      have hfactor : ∀ x, ∃ factor, (s.town.round.allocate x).workforceFactor = .ok factor :=
        fun x => exists_workforceFactor_eq_ok hfits hpopulation
      cases htick : (s.town.tickWith solve).2 with
      | error e' =>
        have hround : (s.town.tickWith solve).1 = s.town.round :=
          eq_round_of_tickWith hfactor (Prod.ext rfl htick)
        exact .inr (.inr (by rw [hround]))
      | ok report =>
        rw [htick] at he
        cases he

/-! ### The allocation -/

section

variable [LinearSolver Float32]

/-- What a session has in common with the session after a failed tick. -/
structure Session.KeepsAllocation (s s' : Session) : Prop where
  population_eq : s'.population = s.population
  plan_eq : s'.town.plan = s.town.plan
  laborers_eq : s'.town.laborers = s.town.laborers
  ticks_eq : s'.town.ticks = s.town.ticks
  lastSteps_eq : s'.town.lastSteps = s.town.lastSteps
  /-- The labor system that is asked for next is that of the first phase, be it complete or not. -/
  system_eq :
    (happen s' .system).2 = (happen { s with town := s.town.deriveAvailable } .system).2 ∨
      ∃ labors, (happen s' .system).2 =
        (happen { s with town := s.town.deriveProductivity labors } .system).2
  /-- It starts from the laborers that there were. -/
  start_eq : ∀ S, (happen s' .system).2 = .ok (.system S) →
    ∀ i, s.town.allocated (.ofFin i) >>= entry = .ok (S.x₀.get i 0)

/-- A labor system that is answered starts from the laborers of the town. -/
lemma allocated_of_happen_system {S : System Float32}
    (h : (happen s .system).2 = .ok (.system S)) (i : Fin 5) :
    s.town.allocated (.ofFin i) >>= entry = .ok (S.x₀.get i 0) := by
  obtain ⟨-, -, h⟩ := bind_eq_ok_iff.mp h
  obtain ⟨S', hS', h⟩ := bind_eq_ok_iff.mp h
  cases h
  exact (entries_of_system (mapError_eq_ok_iff.mp hS')).2.2 i 0

lemma keepsAllocation_of_tickedWith (hnumber : s.unnumbered = none)
    (hpopulation : 0 ≤ s.town.population) (h : (tickedWith solve s).2 = .error e) :
    s.KeepsAllocation (tickedWith solve s).1 := by
  obtain ⟨s', hs'⟩ : ∃ s', tickedWith solve s = (s', .error e) := ⟨_, Prod.ext rfl h⟩
  rw [hs']
  -- the tables that are derived are none of those that a session keeps
  obtain ⟨labors, rfl⟩ | rfl | rfl := tickedWith_eq_error hnumber hpopulation hs'
  · exact ⟨rfl, rfl, rfl, rfl, rfl, .inr ⟨labors, rfl⟩, fun _ => allocated_of_happen_system⟩
  · exact ⟨rfl, rfl, rfl, rfl, rfl, .inl rfl, fun _ => allocated_of_happen_system⟩
  · exact ⟨rfl, rfl, rfl, rfl, rfl, .inl rfl, fun _ => allocated_of_happen_system⟩

/-- A tick of a population that is not negative, when it fails for any reason, keeps the
allocation: with the solver of the plan, whichever of its steps fails, and with any other. -/
theorem keepsAllocation_of_failed_tick (s : Session) (hnumber : s.unnumbered = none)
    (hpopulation : 0 ≤ s.town.population) :
    (∀ e, (ticked s).2 = .error e → s.KeepsAllocation (ticked s).1) ∧
      ∀ solve e, (tickedWith solve s).2 = .error e → s.KeepsAllocation (tickedWith solve s).1 := by
  constructor
  · intro e h
    rw [ticked_eq_tickedWith] at h ⊢
    exact keepsAllocation_of_tickedWith hnumber hpopulation h
  · intro solve e h
    exact keepsAllocation_of_tickedWith hnumber hpopulation h

end

/-- Whether a tick was refused because a matrix is singular. -/
def isSingularTick : Answer Town → Bool
  | .error (.market (.solve (.inversion e))) => e.isSingular
  | _ => false

lemma exists_eq_error_of_isSingularTick {answer : Answer Town}
    (h : isSingularTick answer = true) : ∃ e, answer = .error e := by
  cases answer with
  | error e => exact ⟨e, rfl⟩
  | ok t => cases h

/-- A solver to which every matrix is singular. -/
def refusing : Solver Quantity Float32 := fun _ _ =>
  .error (.solve (.inversion (.unsolved 5 (.singular ""))))

/-- Without damping the normal matrix of the even town is singular. Its ten still work as they did
before, and so they do if the matrix is not even looked at. -/
theorem keepsAllocation_of_failed_tick_evenTown :
    (isSingularTick (ticked ⟨evenTown, none⟩).2 = true ∧
      Session.KeepsAllocation ⟨evenTown, none⟩ (ticked ⟨evenTown, none⟩).1) ∧
    isSingularTick (tickedWith refusing ⟨evenTown, none⟩).2 = true ∧
      Session.KeepsAllocation ⟨evenTown, none⟩ (tickedWith refusing ⟨evenTown, none⟩).1 := by
  have hplanned : isSingularTick (ticked ⟨evenTown, none⟩).2 = true := by decide +kernel
  have hrefusing : isSingularTick (tickedWith refusing ⟨evenTown, none⟩).2 = true := by
    decide +kernel
  obtain ⟨e, he⟩ := exists_eq_error_of_isSingularTick hplanned
  obtain ⟨e', he'⟩ := exists_eq_error_of_isSingularTick hrefusing
  obtain ⟨hticked, htickedWith⟩ :=
    keepsAllocation_of_failed_tick ⟨evenTown, none⟩ rfl (by decide)
  exact ⟨⟨hplanned, hticked e he⟩, hrefusing, htickedWith refusing e' he'⟩

end Request

end Workforce
