import Workforce.Proofs.Market.Consistency
import Workforce.Proofs.Market.Division
import Workforce.Proofs.Market.Singularity

/-!
# Markets stay in range

In exact arithmetic every report of a run is in range, whatever the solver answers: productivities
are shares, nothing is negative, and labor values are positive and bounded. The bounds on labor
values do not depend on the run. They come from the recipes: the value of a good is at most what its
labors add to it with inputs of the greatest values, divided twice by the guard.
-/

namespace Workforce

variable {K : Type} [Field K]

/-- Every good is made by some labor. -/
lemma Good.exists_mem_outputs (g : Good) : ∃ (l : Labor) (a : K), (g, a) ∈ l.recipe.outputs := by
  cases g with
  | log => exact ⟨.lumberjack, 10.0, List.mem_singleton_self _⟩
  | wood => exact ⟨.carpenter, 10.0, List.mem_singleton_self _⟩
  | meat => exact ⟨.fisher, 1.0, List.mem_singleton_self _⟩
  | food => exact ⟨.cook, 1.0, List.mem_singleton_self _⟩

variable [LinearOrder K] [IsStrictOrderedRing K]

lemma zero_literal : (0.0 : K) = 0 := by norm_num

lemma one_literal : (1.0 : K) = 1 := by norm_num

namespace Labor

lemma inputs_pos (l : Labor) : ∀ p ∈ (l.recipe : Recipe K).inputs, 0 < p.2 := by
  cases l <;> norm_num [recipe]

lemma outputs_pos (l : Labor) : ∀ p ∈ (l.recipe : Recipe K).outputs, 0 < p.2 := by
  cases l <;> norm_num [recipe]

end Labor

/-! ### Sums over recipes -/

section

variable {entries : Recipe K → List (Good × K)} {g : Good} {f f' : Labor → K → K}

lemma sumOver_eq_sum :
    sumOver entries g f = ((amountsOf entries g).map fun p => f p.1 p.2).sum := by
  rw [sumOver, List.sum_eq_foldl, zero_literal]

lemma sumOver_nonneg (h : ∀ l a, (g, a) ∈ entries l.recipe → 0 ≤ f l a) :
    0 ≤ sumOver entries g f := by
  rw [sumOver_eq_sum]
  exact List.sum_nonneg (List.forall_mem_map.mpr fun p hp => h p.1 p.2 (mem_amountsOf.mp hp))

lemma sumOver_pos {l : Labor} {a : K} (hg : (g, a) ∈ entries l.recipe)
    (h : ∀ l a, (g, a) ∈ entries l.recipe → 0 < f l a) : 0 < sumOver entries g f := by
  have hne : amountsOf entries g ≠ [] := List.ne_nil_of_mem (mem_amountsOf.mpr hg)
  rw [sumOver_eq_sum]
  exact List.sum_pos _ (List.forall_mem_map.mpr fun p hp => h p.1 p.2 (mem_amountsOf.mp hp))
    (by simpa using hne)

lemma sumOver_le_sumOver (h : ∀ l a, (g, a) ∈ entries l.recipe → f l a ≤ f' l a) :
    sumOver entries g f ≤ sumOver entries g f' := by
  rw [sumOver_eq_sum, sumOver_eq_sum]
  exact List.sum_le_sum fun p hp => h p.1 p.2 (mem_amountsOf.mp hp)

end

/-! ### Ratios to guarded numbers -/

section

variable {a b c : K}

omit [IsStrictOrderedRing K] in
/-- The denominators of two ratios change places. -/
lemma div_larger_guard_mul_swap (a b : K) : a / larger b guard * (b / larger a guard) =
    a / larger a guard * (b / larger b guard) := by
  rw [div_mul_div_comm, div_mul_div_comm, mul_comm (larger b guard)]

lemma larger_guard_pos (a : K) : 0 < larger a guard := guard_pos.trans_le (guard_le_larger a)

lemma div_larger_guard_nonneg (ha : 0 ≤ a) (b : K) : 0 ≤ a / larger b guard :=
  div_nonneg ha (larger_guard_pos b).le

lemma div_larger_guard_le (hc : 0 ≤ c) (hac : a ≤ c) (b : K) : a / larger b guard ≤ c / guard :=
  div_le_div₀ hc hac guard_pos (guard_le_larger b)

lemma div_larger_guard_self_le_one (a : K) : a / larger a guard ≤ 1 := by
  rw [div_le_one (larger_guard_pos a), larger_eq_max]
  exact le_max_left a guard

lemma div_larger_guard_self_eq_one_iff : a / larger a guard = 1 ↔ guard ≤ a := by
  rw [div_eq_one_iff_eq (larger_guard_pos a).ne', larger_eq_max, eq_comm, max_eq_left_iff]

/-- Supply per demand and demand per supply have a product of at most one. It is one unless the
guard is needed. -/
lemma div_larger_guard_mul (ha : 0 ≤ a) (hb : 0 ≤ b) :
    a / larger b guard * (b / larger a guard) ≤ 1 ∧
      (a / larger b guard * (b / larger a guard) = 1 ↔ guard ≤ a ∧ guard ≤ b) := by
  have ha₀ : 0 ≤ a / larger a guard := div_larger_guard_nonneg ha a
  have hb₀ : 0 ≤ b / larger b guard := div_larger_guard_nonneg hb b
  have ha₁ : a / larger a guard ≤ 1 := div_larger_guard_self_le_one a
  have hb₁ : b / larger b guard ≤ 1 := div_larger_guard_self_le_one b
  rw [div_larger_guard_mul_swap, ← div_larger_guard_self_eq_one_iff (a := a),
    ← div_larger_guard_self_eq_one_iff (a := b)]
  refine ⟨mul_le_one₀ ha₁ hb₀ hb₁, fun h => ⟨?_, ?_⟩, fun ⟨ha, hb⟩ => by rw [ha, hb, one_mul]⟩
  · exact ha₁.antisymm (h ▸ mul_le_of_le_one_right ha₀ hb₁)
  · exact hb₁.antisymm (h ▸ mul_le_of_le_one_left hb₀ ha₁)

end

namespace Market

variable {m m' r : Market K K}

/-! ### Bounds on labor values -/

/-- The greatest labor value that a good can have. -/
def valueBound (g : Good) : K :=
  let log := 1 / guard ^ 2
  let wood := (10 * log + 1) / guard ^ 2
  let meat := (0.1 * wood + 2) / guard ^ 2
  match g with
  | .log => log
  | .wood => wood
  | .meat => meat
  | .food => (0.2 * wood + meat + 1) / guard ^ 2

/-- The greatest labor value of what one laborer uses up in a tick. -/
def inputBound (l : Labor) : K :=
  ((l.recipe : Recipe K).inputs.map fun p => valueBound p.1 * p.2).sum

/-- A bound is what the labors add to a good with inputs of the greatest values, divided by the
guard once for the volume and once for the output. -/
lemma valueBound_eq (g : Good) : (valueBound g : K) =
    sumOver Recipe.outputs g (fun l _ => (inputBound l + 1) / guard) / guard := by
  have hguard : (guard : K) ≠ 0 := guard_pos.ne'
  rw [sumOver_eq_sum]
  cases g <;> simp [amountsOf, Labor.all, Labor.recipe, inputBound, valueBound] <;> field_simp <;>
    norm_num
  -- two labors make meat
  ring

lemma valueBound_nonneg (g : Good) : 0 ≤ (valueBound g : K) := by
  cases g <;> simp only [valueBound] <;> positivity

/-- A market that has not had a tick knows no labor values, so they are in bounds. -/
lemma laborValueOf_mem_of_nil (h : m.laborValue = []) (g : Good) :
    m.laborValueOf g ∈ Set.Icc 0 (valueBound g) := by
  have hzero : m.laborValueOf g = 0 := by
    rw [laborValueOf, h]
    exact zero_literal
  rw [hzero]
  exact Set.left_mem_Icc.mpr (valueBound_nonneg g)

/-! ### Phases -/

/-- What a run starts from and keeps. -/
structure InBounds (m : Market K K) : Prop where
  staffed : m.IsStaffed
  population_nonneg : 0 ≤ m.population
  minAllocation_nonneg : 0 ≤ m.plan.minAllocation
  laborers_nonneg : ∀ l, 0 ≤ m.laborersOf l
  laborValue_mem : ∀ g, m.laborValueOf g ∈ Set.Icc 0 (valueBound g)

/-- The ranges of what a report shows of labors and goods. -/
structure InRange (r : Market K K) : Prop where
  productivity_mem : ∀ l, r.productivityOf l ∈ Set.Icc 0 1
  demand_nonneg : ∀ g, 0 ≤ r.demandOf g
  output_nonneg : ∀ g, 0 ≤ r.outputOf g
  available_nonneg : ∀ g, 0 ≤ r.availableOf g
  price_nonneg : ∀ g, 0 ≤ r.priceOf g
  available_mul_price_le : ∀ g, r.availableOf g * r.priceOf g ≤ 1
  available_mul_price_eq_iff : ∀ g,
    r.availableOf g * r.priceOf g = 1 ↔ guard ≤ r.outputOf g ∧ guard ≤ r.demandOf g
  laborValue_mem : ∀ g, r.laborValueOf g ∈ Set.Ioc 0 (valueBound g)

lemma share_mem (m : Market K K) (g : Good) : m.share g ∈ Set.Icc 0 1 := by
  rw [share, smaller_eq_min, larger_eq_max, zero_literal, one_literal]
  exact ⟨le_min (le_max_right _ _) zero_le_one, min_le_right _ _⟩

lemma scarcest_mem (m : Market K K) (l : Labor) : (m.scarcest l).1 ∈ Set.Icc 0 1 :=
  (m.limits_scarcest l).fst_mem (by norm_num) m.share_mem

namespace InBounds

lemma demandFor_nonneg (hm : m.InBounds) (g : Good) : 0 ≤ m.demandFor g := by
  rw [demandFor_eq]
  split_ifs
  · exact mul_nonneg hm.population_nonneg (by norm_num)
  · exact sumOver_nonneg fun l a ha => mul_nonneg (l.inputs_pos _ ha).le (hm.laborers_nonneg l)

lemma supplyFor_nonneg (hm : m.InBounds) (g : Good) : 0 ≤ m.supplyFor g :=
  sumOver_nonneg fun l _ ha =>
    mul_nonneg (mul_nonneg (l.outputs_pos _ ha).le (hm.laborers_nonneg l)) (m.scarcest_mem l).1

lemma inputValue_mem (hm : m.InBounds) (l : Labor) :
    m.inputValue l ∈ Set.Icc 0 (inputBound l) := by
  have hsum : m.inputValue l =
      ((l.recipe : Recipe K).inputs.map fun p => m.laborValueOf p.1 * p.2).sum := by
    rw [inputValue, ← List.sum_eq_foldl]
    rfl
  rw [hsum]
  constructor
  · refine List.sum_nonneg (List.forall_mem_map.mpr fun p hp => ?_)
    exact mul_nonneg (hm.laborValue_mem p.1).1 (l.inputs_pos p hp).le
  · refine List.sum_le_sum fun p hp => ?_
    exact mul_le_mul_of_nonneg_right (hm.laborValue_mem p.1).2 (l.inputs_pos p hp).le

/-- What labors add to a good is positive, and at most what they add with inputs of the greatest
values. -/
lemma valueFor_mem (hm : m.InBounds) (g : Good) : m.valueFor g ∈
    Set.Ioc 0 (sumOver Recipe.outputs g fun l _ => (inputBound l + 1) / guard) := by
  have hpos (l : Labor) : 0 < m.inputValue l + 1 :=
    add_pos_of_nonneg_of_pos (hm.inputValue_mem l).1 one_pos
  have hle (l : Labor) : m.inputValue l + 1 ≤ inputBound l + 1 := by
    gcongr
    exact (hm.inputValue_mem l).2
  rw [valueFor, one_literal]
  constructor
  · obtain ⟨l, a, hg⟩ := g.exists_mem_outputs (K := K)
    exact sumOver_pos hg fun l _ _ => div_pos (hpos l) (larger_guard_pos _)
  · exact sumOver_le_sumOver fun l _ _ =>
      div_larger_guard_le ((hpos l).le.trans (hle l)) (hle l) _

/-- The labor value that a round derives. -/
lemma laborValue_mem_of_round (hm : m.InBounds) (g : Good) :
    m.valueFor g / larger (m.supplyFor g) guard ∈ Set.Ioc 0 (valueBound g) := by
  obtain ⟨hpos, hle⟩ := hm.valueFor_mem g
  rw [valueBound_eq]
  exact ⟨div_pos hpos (larger_guard_pos _), div_larger_guard_le (hpos.le.trans hle) hle _⟩

/-- The round of a market in bounds is in range. -/
lemma inRange_of_derived_eq (hm : m.InBounds) (h : r.derived = m.round.derived) : r.InRange := by
  have hdemand := hm.demandFor_nonneg
  have hsupply := hm.supplyFor_nonneg
  constructor
  all_goals
    simp only [productivityOf_of_derived_eq h, demandOf_of_derived_eq h, outputOf_of_derived_eq h,
      availableOf_of_derived_eq h, priceOf_of_derived_eq h, laborValueOf_of_derived_eq h]
  case productivity_mem => exact m.scarcest_mem
  case demand_nonneg => exact hdemand
  case output_nonneg => exact hsupply
  case available_nonneg => exact fun g => div_larger_guard_nonneg (hsupply g) _
  case price_nonneg => exact fun g => div_larger_guard_nonneg (hdemand g) _
  case available_mul_price_le => exact fun g => (div_larger_guard_mul (hsupply g) (hdemand g)).1
  case available_mul_price_eq_iff => exact fun g => (div_larger_guard_mul (hsupply g) (hdemand g)).2
  case laborValue_mem => exact hm.laborValue_mem_of_round

/-! ### Ticks -/

/-- A tick keeps a market in bounds, and its report is in range. -/
lemma tickWith {solve : Solver K K} (hm : m.InBounds) (h : m.tickWith solve = (m', .ok r)) :
    m'.InBounds ∧ r.InRange := by
  obtain ⟨hderived, rfl⟩ := derived_of_tickWith h
  have hr := hm.inRange_of_derived_eq hderived
  have hstart : m.Continues m := ⟨hm.staffed, rfl, rfl, hm.laborers_nonneg⟩
  obtain ⟨hcontinues, -⟩ := hstart.tickWith hm.population_nonneg hm.minAllocation_nonneg h
  refine ⟨⟨hcontinues.staffed, ?_, ?_, hcontinues.laborers_nonneg, fun g => ?_⟩, hr⟩
  · exact hm.population_nonneg.trans_eq hcontinues.population_eq.symm
  · rw [hcontinues.plan_eq]
    exact hm.minAllocation_nonneg
  · exact Set.Ioc_subset_Icc_self (hr.laborValue_mem g)

end InBounds

/-- Both phases and the labor system divide by guarded numbers only, and laborers are scaled by
their total only when it is positive. -/
structure DividesByPositive (m : Market K K) : Prop where
  deriveAvailable : DividesOnlyBy (Set.Ici (guard : K)) fun _ : Div K => m.deriveAvailable
  deriveLaborValues : DividesOnlyBy (Set.Ici (guard : K)) fun _ : Div K => m.deriveLaborValues
  system : DividesOnlyBy (Set.Ici (guard : K)) fun _ : Div K => m.system (α := K)
  workforceFactor :
    DividesOnlyBy {b : K | b = m.totalLaborers ∧ 0 < b} fun _ : Div K => m.workforceFactor (α := K)

/-- A run of ticks that starts in bounds, with whatever solver at every tick, ends early only where
a solver refuses, and all its reports are in range. Divisions are by positive numbers only, in each
phase of any market with a population that is not negative and so along the run. -/
theorem ticks_in_range (hm : m.InBounds) (solve : Market K K → Solver K K) (n : ℕ) :
    ((∃ e, (reportsFrom (fun m => m.tickWith (solve m)) m n).2 = some e ∧
        ∃ m p x, solve m p x = .error e) ∨
      (reportsFrom (fun m => m.tickWith (solve m)) m n).2 = none ∧
        (reportsFrom (fun m => m.tickWith (solve m)) m n).1.length = n) ∧
      (∀ r ∈ (reportsFrom (fun m => m.tickWith (solve m)) m n).1, r.InRange) ∧
      (∀ m : Market K K, 0 ≤ m.population → m.DividesByPositive) ∧
      DividesOnlyBy (Set.Ioi (0 : K)) fun _ : Div K =>
        reportsFrom (fun m => m.tickWith (solve m)) m n := by
  refine ⟨?_, ?_, fun m h => ?_, dividesOnlyBy_reportsFrom hm.population_nonneg solve n⟩
  · refine reportsFrom_cases (fun m e hm he => ?_) (fun _ _ _ hm ht => (hm.tickWith ht).1) hm n
    exact ⟨m, exists_solve_eq_error_of_tickWith hm.staffed.hasEveryLabor hm.population_nonneg he⟩
  · exact forall_mem_reportsFrom (fun _ _ _ hm ht => InBounds.tickWith hm ht) hm n
  · exact ⟨m.dividesOnlyBy_deriveAvailable, m.dividesOnlyBy_deriveLaborValues,
      m.dividesOnlyBy_system, dividesOnlyBy_workforceFactor h⟩

/-- Two ticks of the town of ten, the first with a negative number in the solution. -/
theorem ticks_in_range_townOfTen : townOfTen.InBounds ∧
    (reportsFrom (fun m => m.tickWith fun _ _ =>
      .ok (if m.ticks = 0 then stepTo ![20, -15, 10, 5, 5] else [])) townOfTen 2).1.length = 2 ∧
    ∀ r ∈ (reportsFrom (fun m => m.tickWith fun _ _ =>
      .ok (if m.ticks = 0 then stepTo ![20, -15, 10, 5, 5] else [])) townOfTen 2).1, r.InRange := by
  have hbounds : townOfTen.InBounds :=
    { staffed := rfl
      population_nonneg := by norm_num [townOfTen]
      minAllocation_nonneg := by norm_num [townOfTen]
      laborers_nonneg := fun l => by simp
      laborValue_mem := laborValueOf_mem_of_nil rfl }
  obtain ⟨hend, hrange, -⟩ := ticks_in_range hbounds
    (fun m _ _ => .ok (if m.ticks = 0 then stepTo ![20, -15, 10, 5, 5] else [])) 2
  refine ⟨hbounds, ?_, hrange⟩
  -- this solver never refuses, so both ticks complete
  obtain ⟨e, -, m, p, x, he⟩ | ⟨-, hlength⟩ := hend
  · cases he
  · exact hlength

end Market

end Workforce
