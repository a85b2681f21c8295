import Workforce.Proofs.Descent.LineSearch
import Workforce.Proofs.Market.System
import Workforce.Proofs.Number.Exact

/-!
# The workforce cap

A tick scales the laborers down to the population and raises every labor to its least allocation.
The scale is found from the sum of the solution, negative entries included, which the least
allocation then removes. So the laborers exceed the population by no more than the least
allocations and what the solution had below zero: the cap holds when the solution has no negative
entries, and not otherwise.
-/

namespace Workforce.Market

variable {K : Type} [Field K] [LinearOrder K]
variable {m m' report : Market K K} {solve : Solver K K} {x : Grid K}
variable {steps : List (Outcome K K)} {factor : K}

lemma IsStaffed.totalLaborers_eq_sum (h : m.IsStaffed) :
    m.totalLaborers = ∑ i, m.laborersOf (Labor.ofFin i) := by
  rw [totalLaborers, h.values_eq_map, ← List.sum_eq_foldl, Labor.all_eq_map, List.map_map,
    Fin.sum_univ_def]
  rfl

/-- The laborers of a market as a starting point. -/
def staff (m : Market K K) : Grid K :=
  ⟨(Mat.ofFn fun i _ => m.laborersOf (.ofFin i) : Mat K 5 1)⟩

@[simp] lemma get?_staff (m : Market K K) (i : Fin 5) :
    m.staff.get? i 0 = some (m.laborersOf (.ofFin i)) := by
  simp [staff, Grid.get?]

/-- The solution is where the steps of the solver end that start from the laborers. -/
lemma IsStaffed.eq_lastPoint_of_solveSystem (h : m.IsStaffed)
    (hsolve : m.solveSystem solve = .ok (x, steps)) : x = Outcome.lastPoint m.staff steps := by
  rw [solveSystem, h.hasEveryLabor.system_eq_ok] at hsolve
  obtain ⟨s, hs, hsolve⟩ := bind_eq_ok_iff.mp hsolve
  obtain ⟨k, -, hsolve⟩ := bind_eq_ok_iff.mp hsolve
  obtain ⟨p, -, hsolve⟩ := bind_eq_ok_iff.mp hsolve
  obtain ⟨steps', -, hsolve⟩ := bind_eq_ok_iff.mp hsolve
  cases hs
  cases hsolve
  rfl

/-- What the last point of a solver lacks to zero, over all labors. -/
def shortfall (steps : List (Outcome K K)) : K :=
  match steps.getLast? with
  | none => 0
  | some o => ∑ i : Fin 5, max 0 (-(o.x.get? i 0).getD 0)

variable [IsStrictOrderedRing K]

lemma shortfall_eq_zero
    (h : ∀ o ∈ steps.getLast?, ∀ i : Fin 5, ∀ a ∈ o.x.get? i 0, 0 ≤ a) : shortfall steps = 0 := by
  rw [shortfall]
  cases ho : steps.getLast? with
  | none => rfl
  | some o =>
    refine Finset.sum_eq_zero fun i _ => max_eq_left ?_
    cases ha : o.x.get? i 0 with
    | none => exact neg_zero.le
    | some a => exact neg_nonpos.mpr (h o ho i a ha)

/-! ### Scaling -/

/-- The factor scales the laborers down to the population, and never up. -/
lemma factor_spec (hpopulation : 0 ≤ m.population) (h : m.workforceFactor = .ok factor) :
    0 ≤ factor ∧ factor ≤ 1 ∧ m.totalLaborers * factor ≤ m.population := by
  rw [workforceFactor] at h
  by_cases hlt : m.population < m.totalLaborers
  · have htotal : 0 < m.totalLaborers := hpopulation.trans_lt hlt
    have hfactor : m.population / m.totalLaborers = factor := by
      rw [if_pos hlt, if_neg (by simpa using htotal.ne')] at h
      cases h
      rfl
    rw [← hfactor]
    refine ⟨div_nonneg hpopulation htotal.le, (div_le_one htotal).mpr hlt.le, ?_⟩
    rw [mul_div_cancel₀ _ htotal.ne']
  · have hone : (1.0 : K) = 1 := by norm_num
    have hfactor : factor = 1 := by
      rw [if_neg hlt, hone] at h
      cases h
      rfl
    rw [hfactor, mul_one]
    exact ⟨zero_le_one, le_rfl, not_lt.mp hlt⟩

/-- Raising scaled numbers to a least one adds no more than that, and what negative numbers lack to
zero. -/
lemma larger_le {a b : K} (hfactor : 0 ≤ factor) (hone : factor ≤ 1) (hb : 0 ≤ b) :
    larger (a * factor) b ≤ a * factor + b + max 0 (-a) := by
  have hnonneg : 0 ≤ a * factor + max 0 (-a) := by
    rcases le_total 0 a with ha | ha
    · exact add_nonneg (mul_nonneg ha hfactor) (le_max_left 0 (-a))
    · rw [max_eq_right (neg_nonneg.mpr ha)]
      nlinarith
  rw [larger_eq_max]
  refine max_le ?_ ?_
  · linarith [le_max_left 0 (-a)]
  · linarith

/-- Allocated laborers lack to zero what the solution does, if there were enough before. -/
lemma sum_lack_allocate (hlaborers : ∀ l, 0 ≤ m.laborersOf l) :
    ∑ i, max 0 (-(m.allocate (Outcome.lastPoint m.staff steps)).laborersOf (Labor.ofFin i)) =
      shortfall steps := by
  rw [shortfall, Outcome.lastPoint]
  cases steps.getLast? with
  | none =>
    refine Finset.sum_eq_zero fun i _ => max_eq_left ?_
    rw [laborersOf_allocate, get?_staff, neg_nonpos]
    exact hlaborers _
  | some o =>
    refine Finset.sum_congr rfl fun i _ => ?_
    rw [laborersOf_allocate]
    cases ha : o.x.get? i 0 with
    | none => simpa using hlaborers _
    | some a => rfl

/-! ### Ticks -/

/-- What redistribution keeps and what it has reached. -/
lemma cap_of_redistributeWith (hm : m.IsStaffed) (hpopulation : 0 ≤ m.population)
    (hmin : 0 ≤ m.plan.minAllocation) (hlaborers : ∀ l, 0 ≤ m.laborersOf l)
    (h : m.redistributeWith solve = (m', .ok steps)) :
    m'.IsStaffed ∧ m'.plan = m.plan ∧ m'.population = m.population ∧
      (∀ l, m.plan.minAllocation ≤ m'.laborersOf l) ∧
      m'.totalLaborers ≤ m.population + Labor.all.length * m.plan.minAllocation +
        shortfall steps := by
  obtain ⟨x, factor, hsolve, hfactor, rfl⟩ := redistributeWith_eq_ok_iff.mp h
  have hx := hm.eq_lastPoint_of_solveSystem hsolve
  have hm₁ : (m.allocate x).IsStaffed := hm.allocate x
  obtain ⟨hnonneg, hone, htotal⟩ := factor_spec (m := m.allocate x) hpopulation hfactor
  refine ⟨hm₁.rescale factor, rfl, rfl, fun l => ?_, ?_⟩
  · rw [hm₁.laborersOf_rescale, larger_eq_max]
    exact le_max_right _ _
  -- each labor is bounded by itself: the factor is made from a total that counts negative numbers,
  -- and these are lifted to the least allocation afterwards
  · calc (Market.rescale (m.allocate x) factor).totalLaborers
        = ∑ i, larger ((m.allocate x).laborersOf (.ofFin i) * factor) m.plan.minAllocation := by
          rw [(hm₁.rescale factor).totalLaborers_eq_sum]
          exact Finset.sum_congr rfl fun i _ => hm₁.laborersOf_rescale factor _
      _ ≤ ∑ i, ((m.allocate x).laborersOf (.ofFin i) * factor + m.plan.minAllocation +
            max 0 (-(m.allocate x).laborersOf (.ofFin i))) :=
          Finset.sum_le_sum fun i _ => larger_le hnonneg hone hmin
      _ = (m.allocate x).totalLaborers * factor + Labor.all.length * m.plan.minAllocation +
            shortfall steps := by
          rw [Finset.sum_add_distrib, Finset.sum_add_distrib, ← Finset.sum_mul,
            ← hm₁.totalLaborers_eq_sum, hx, sum_lack_allocate hlaborers]
          simp [Labor.all]
      _ ≤ _ := by gcongr; exact htotal

/-- A market that ticks have left with the plan and the population it had. -/
structure Continues (m₀ m : Market K K) : Prop where
  staffed : m.IsStaffed
  plan_eq : m.plan = m₀.plan
  population_eq : m.population = m₀.population
  laborers_nonneg : ∀ l, 0 ≤ m.laborersOf l

/-- The bounds on the laborers of a report, for the market that the run starts from. -/
structure Capped (m₀ report : Market K K) : Prop where
  minAllocation_le : ∀ l, m₀.plan.minAllocation ≤ report.laborersOf l
  totalLaborers_le : report.totalLaborers ≤
    m₀.population + Labor.all.length * m₀.plan.minAllocation + shortfall report.lastSteps

lemma Continues.tickWith {m₀ : Market K K} (hm : m₀.Continues m)
    (hpopulation : 0 ≤ m₀.population) (hmin : 0 ≤ m₀.plan.minAllocation)
    (h : m.tickWith solve = (m', .ok report)) : m₀.Continues m' ∧ m₀.Capped report := by
  obtain ⟨m₁, steps, hmoved, rfl, rfl⟩ := tickWith_eq_ok_iff.mp h
  -- the derived goods and labor values leave the laborers, the plan and the population
  obtain ⟨hstaffed, hplan, hpopulation', hleast, htotal⟩ :=
    cap_of_redistributeWith (m := m.deriveAvailable.deriveLaborValues) hm.staffed
      (hm.population_eq ▸ hpopulation) (hm.plan_eq ▸ hmin) hm.laborers_nonneg hmoved
  have hplan₀ : m.deriveAvailable.deriveLaborValues.plan = m₀.plan := hm.plan_eq
  have hpopulation₀ : m.deriveAvailable.deriveLaborValues.population = m₀.population :=
    hm.population_eq
  rw [hplan₀] at hplan hleast htotal
  rw [hpopulation₀] at hpopulation' htotal
  exact ⟨⟨hstaffed, hplan, hpopulation', fun l => hmin.trans (hleast l)⟩, hleast, htotal⟩

/-- Along a run of ticks with any solver no labor falls below its least allocation, and all
laborers together exceed the population by no more than the least allocations and what the
solution lacked to zero. Without negative entries the cap holds. -/
theorem totalLaborers_le_of_ticksWith (hm : m.IsStaffed) (hpopulation : 0 ≤ m.population)
    (hmin : 0 ≤ m.plan.minAllocation) (hlaborers : ∀ l, 0 ≤ m.laborersOf l) {n : ℕ}
    {reports : List (Market K K)} (h : m.ticksWith solve n = .ok reports) :
    ∀ r ∈ reports, (∀ l, m.plan.minAllocation ≤ r.laborersOf l) ∧
      r.totalLaborers ≤
        m.population + Labor.all.length * m.plan.minAllocation + shortfall r.lastSteps ∧
      ((∀ o ∈ r.lastSteps.getLast?, ∀ i : Fin 5, ∀ a ∈ o.x.get? i 0, 0 ≤ a) →
        r.totalLaborers ≤ m.population + Labor.all.length * m.plan.minAllocation) := by
  have hcapped : ∀ r ∈ reports, m.Capped r :=
    forall_mem_of_ticksWith
      (fun _ _ _ hm ht => Continues.tickWith hm hpopulation hmin ht) ⟨hm, rfl, rfl, hlaborers⟩ h
  intro r hr
  obtain ⟨hleast, htotal⟩ := hcapped r hr
  refine ⟨hleast, htotal, fun hnonneg => ?_⟩
  rwa [shortfall_eq_zero hnonneg, add_zero] at htotal

/-- A town of ten, two to a labor. -/
def townOfTen : Market ℚ ℚ where
  plan :=
    { target := 1, minAllocation := 1 / 100, steps := .whole 1, jacobianScale := 1,
      descent := .halving }
  population := 10
  laborers := Table.tabulate Labor.all fun _ => 2

@[simp] lemma laborersOf_townOfTen (l : Labor) : townOfTen.laborersOf l = 2 := by
  cases l <;> rfl

/-- One step to given laborers. -/
def stepTo (laborers : Fin 5 → ℚ) : List (Outcome ℚ ℚ) :=
  [⟨⟨(Mat.ofFn fun i _ => laborers i : Mat ℚ 5 1)⟩, 1, 0, some 1, 1⟩]

/-- Forty are scaled down to the population of ten, at both ticks. -/
theorem totalLaborers_le_of_ticksWith_townOfTen :
    ∃ reports, townOfTen.ticksWith (fun _ _ => .ok (stepTo ![20, 0, 10, 5, 5])) 2 = .ok reports ∧
      reports.length = 2 ∧ ∀ r ∈ reports, r.totalLaborers ≤ 10 + 5 * (1 / 100) := by
  obtain ⟨reports, hreports, hsteps⟩ : ∃ reports,
      townOfTen.ticksWith (fun _ _ => .ok (stepTo ![20, 0, 10, 5, 5])) 2 = .ok reports ∧
        reports.map lastSteps = [stepTo ![20, 0, 10, 5, 5], stepTo ![20, 0, 10, 5, 5]] := by
    apply map_eq_ok_iff.mp
    cbv
  refine ⟨reports, hreports, by simpa using congrArg List.length hsteps, fun r hr => ?_⟩
  have hr' : r.lastSteps = stepTo ![20, 0, 10, 5, 5] := by
    simpa [hsteps] using List.mem_map_of_mem (f := lastSteps) hr
  obtain ⟨-, -, hcap⟩ := totalLaborers_le_of_ticksWith (m := townOfTen) rfl (by decide)
    (by norm_num [townOfTen]) (fun l => by simp) hreports r hr
  exact hcap (by rw [hr']; decide)

/-- A solution with twenty and minus fifteen in it adds up to eight. That is within the population,
so nothing is scaled down, and twenty remain when the negative number has been raised. -/
theorem not_forall_totalLaborers_le :
    ¬ ∀ (m : Market ℚ ℚ) (solve : Solver ℚ ℚ) (n : ℕ) (reports : List (Market ℚ ℚ)),
      m.IsStaffed → 0 ≤ m.population → 0 ≤ m.plan.minAllocation → (∀ l, 0 ≤ m.laborersOf l) →
      m.ticksWith solve n = .ok reports → ∀ r ∈ reports,
        r.totalLaborers ≤ m.population + Labor.all.length * m.plan.minAllocation := by
  intro hcap
  obtain ⟨reports, hreports, htotal⟩ : ∃ reports,
      townOfTen.ticksWith (fun _ _ => .ok (stepTo ![20, -15, 1, 1, 1])) 1 = .ok reports ∧
        reports.map totalLaborers = [2301 / 100] := by
    apply map_eq_ok_iff.mp
    cbv
  obtain ⟨r, rfl, hr⟩ := List.map_eq_singleton_iff.mp htotal
  have hle := hcap townOfTen _ 1 [r] rfl (by decide) (by norm_num [townOfTen])
    (fun l => by simp) hreports r (List.mem_singleton_self r)
  rw [hr] at hle
  norm_num [townOfTen, Labor.all] at hle

end Workforce.Market
