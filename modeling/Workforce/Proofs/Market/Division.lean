import Workforce.Proofs.Market.Reports
import Workforce.Proofs.Market.Ticks
import Workforce.Proofs.Number.Exact

/-!
# Divisions of a tick

The phases of a tick and the labor system divide only by numbers that are guarded from below, in any
state of a market. Moving laborers divides by their total, when that is above the population. So no
tick of a market whose population is not negative divides by zero or less.
-/

namespace Workforce

variable {K β : Type} [Field K]

/-- What is computed with a division depends on its quotients by the numbers of a set only: any
division that has the quotients of the field there gives the same result. -/
def DividesOnlyBy (s : Set K) (f : Div K → β) : Prop :=
  ∀ div : K → K → K, (∀ a, ∀ b ∈ s, div a b = a / b) → f ⟨div⟩ = f inferInstance

lemma DividesOnlyBy.mono {s t : Set K} {f : Div K → β} (hst : s ⊆ t) (h : DividesOnlyBy s f) :
    DividesOnlyBy t f :=
  fun div hdiv => h div fun a b hb => hdiv a b (hst hb)

variable [LinearOrder K]

lemma guard_pos [IsStrictOrderedRing K] : (0 : K) < guard := by norm_num [guard]

lemma guard_le_larger (a : K) : guard ≤ larger a guard := by
  rw [larger_eq_max]
  exact le_max_right a guard

namespace Market

variable {m : Market K K}

/-! ### Phases -/

lemma div_larger_guard {div : K → K → K}
    (hdiv : ∀ a, ∀ b ∈ Set.Ici (guard : K), div a b = a / b) (a b : K) :
    @HDiv.hDiv K K K (@instHDiv K ⟨div⟩) a (larger b guard) = a / larger b guard :=
  hdiv a _ (guard_le_larger b)

lemma dividesOnlyBy_deriveAvailable (m : Market K K) :
    DividesOnlyBy (Set.Ici (guard : K)) fun _ : Div K => m.deriveAvailable := by
  intro div hdiv
  simp only [deriveAvailable, div_larger_guard hdiv]

lemma dividesOnlyBy_valueAdded (m : Market K K) :
    DividesOnlyBy (Set.Ici (guard : K)) fun _ : Div K => m.valueAdded := by
  intro div hdiv
  funext l
  simp only [valueAdded, div_larger_guard hdiv]

lemma dividesOnlyBy_deriveLaborValues (m : Market K K) :
    DividesOnlyBy (Set.Ici (guard : K)) fun _ : Div K => m.deriveLaborValues := by
  intro div hdiv
  simp only [deriveLaborValues, m.dividesOnlyBy_valueAdded div hdiv, div_larger_guard hdiv]

/-! ### Moving laborers -/

/-- Laborers are scaled by their total alone, and only when it is positive. -/
lemma dividesOnlyBy_workforceFactor (h : 0 ≤ m.population) :
    DividesOnlyBy {b : K | b = m.totalLaborers ∧ 0 < b} fun _ : Div K => m.workforceFactor := by
  intro div hdiv
  by_cases hlt : m.population < m.totalLaborers
  · have htotal : @HDiv.hDiv K K K (@instHDiv K ⟨div⟩) m.population m.totalLaborers =
        m.population / m.totalLaborers := hdiv _ _ ⟨rfl, h.trans_lt hlt⟩
    simp only [workforceFactor, htotal]
  · simp only [workforceFactor, hlt, if_false]

variable [IsStrictOrderedRing K]

lemma guard_le_guardedProductivity (m : Market K K) (l : Labor) :
    guard ≤ m.guardedProductivity l := by
  have htenth : (guard : K) ≤ 0.1 := by norm_num [guard]
  rw [guardedProductivity, larger_eq_max]
  exact htenth.trans (le_max_right _ _)

lemma dividesOnlyBy_coefficient (m : Market K K) :
    DividesOnlyBy (Set.Ici (guard : K)) fun _ : Div K => m.coefficient := by
  intro div hdiv
  have hproductivity (a : K) (l : Labor) :
      @HDiv.hDiv K K K (@instHDiv K ⟨div⟩) a (m.guardedProductivity l) =
        a / m.guardedProductivity l :=
    hdiv a _ (m.guard_le_guardedProductivity l)
  funext g l
  simp only [coefficient, guardedDemand, hproductivity, div_larger_guard hdiv]

lemma dividesOnlyBy_system (m : Market K K) :
    DividesOnlyBy (Set.Ici (guard : K)) fun _ : Div K => m.system (α := K) := by
  intro div hdiv
  simp only [system, m.dividesOnlyBy_coefficient div hdiv]

/-! ### Ticks -/

lemma dividesOnlyBy_redistributeWith (h : 0 ≤ m.population) (solve : Solver K K) :
    DividesOnlyBy (Set.Ioi (0 : K)) fun _ : Div K => m.redistributeWith solve := by
  intro div hdiv
  have hpositive : Set.Ici (guard : K) ⊆ Set.Ioi 0 := Set.Ici_subset_Ioi.mpr guard_pos
  have hsystem := m.dividesOnlyBy_system.mono hpositive div hdiv
  have hfactor (x : Grid K) :=
    (dividesOnlyBy_workforceFactor (m := m.allocate x) h).mono (fun _ hb => hb.2) div hdiv
  simp only [redistributeWith, solveSystem, hsystem, hfactor]

lemma dividesOnlyBy_tickWith (h : 0 ≤ m.population) (solve : Solver K K) :
    DividesOnlyBy (Set.Ioi (0 : K)) fun _ : Div K => m.tickWith solve := by
  intro div hdiv
  have hpositive : Set.Ici (guard : K) ⊆ Set.Ioi 0 := Set.Ici_subset_Ioi.mpr guard_pos
  have havailable := m.dividesOnlyBy_deriveAvailable.mono hpositive div hdiv
  have hvalues (m : Market K K) := m.dividesOnlyBy_deriveLaborValues.mono hpositive div hdiv
  have hmoved := dividesOnlyBy_redistributeWith (m := m.deriveAvailable.deriveLaborValues) h solve
    div hdiv
  simp only [tickWith, havailable, hvalues, hmoved]

/-- Ticks in a row, each with a solver of its own, divide by positive numbers only. -/
lemma dividesOnlyBy_reportsFrom (h : 0 ≤ m.population) (solve : Market K K → Solver K K) (n : ℕ) :
    DividesOnlyBy (Set.Ioi (0 : K)) fun _ : Div K =>
      reportsFrom (fun m => m.tickWith (solve m)) m n := by
  intro div hdiv
  refine reportsFrom_congr (fun m m' => m = m' ∧ 0 ≤ m.population) ?_ ⟨rfl, h⟩ n
  rintro m _ ⟨rfl, hm⟩
  have htick := dividesOnlyBy_tickWith hm (solve m) div hdiv
  dsimp only at htick ⊢
  rw [htick]
  refine ⟨rfl, fun r hr => ⟨rfl, ?_⟩⟩
  exact hm.trans_eq (population_of_tickWith (Prod.ext rfl hr)).symm

end Market

end Workforce
