import Workforce.Proofs.Market.Range

/-!
# Rows of the labor system and supply

A supply per demand multiplies the laborers of a labor by its productivity, while the coefficients
of the labor system divide by it. So the rows of the labor system, at the present allocation, are
the supplies per demand of a market only where labors are fully productive. Elsewhere they are
greater (`Market.system_overstates_available`).
-/

namespace Workforce

variable {K : Type} [Field K]

/-- Every labor has one product. -/
lemma Labor.exists_outputs_eq (l : Labor) :
    ∃ (g : Good) (a : K), (l.recipe : Recipe K).outputs = [(g, a)] := by
  cases l <;> exact ⟨_, _, rfl⟩

variable [LinearOrder K]

namespace Market

lemma coefficient_eq_sum (m : Market K K) (g : Good) (l : Labor) :
    m.coefficient g l = (((l.recipe : Recipe K).outputs.filter fun p => p.1 = g).map fun p =>
      p.2 / m.guardedProductivity l / m.guardedDemand g).sum := by
  obtain ⟨g', a, houtputs⟩ := l.exists_outputs_eq (K := K)
  by_cases hg : g' = g <;> simp [coefficient, houtputs, hg]

end Market

variable [IsStrictOrderedRing K]

/-! ### Sums over recipes -/

section

variable {entries : Recipe K → List (Good × K)} {g : Good} {f f' : Labor → K → K}

lemma sumOver_div (c : K) :
    sumOver entries g f / c = sumOver entries g fun l a => f l a / c := by
  simp only [sumOver_eq_sum, div_eq_mul_inv, List.sum_map_mul_right]

end

namespace Market

variable {m : Market K K}

/-! ### Rows of the labor system -/

/-- A row of the labor system, multiplied with the laborers, sums over what labors make of a good.
Their productivities divide. -/
lemma sum_coefficient_mul (m : Market K K) (g : Good) :
    ∑ j, m.coefficient g (.ofFin j) * m.laborersOf (.ofFin j) =
      sumOver Recipe.outputs g (fun l a => a * m.laborersOf l / m.guardedProductivity l) /
        m.guardedDemand g := by
  rw [sumOver_div, sumOver_eq_sum, amountsOf, List.map_flatMap, List.flatMap_def, List.sum_flatten,
    Labor.all_eq_map, List.map_map, List.map_map, Fin.sum_univ_def]
  congr 1
  refine List.map_congr_left fun j _ => ?_
  simp only [Function.comp_apply, List.map_map, coefficient_eq_sum, ← List.sum_map_mul_right]
  congr 1
  refine List.map_congr_left fun p _ => ?_
  simp only [Function.comp_apply]
  ring

/-- The labor system of a market with every labor, and its rows at the present allocation. -/
lemma HasEveryLabor.exists_system (h : m.HasEveryLabor) :
    ∃ s : System K, m.system = .ok s ∧ ∀ i, (s.A * s.x₀).get i 0 =
      sumOver Recipe.outputs (.ofFin i) (fun l a => a * m.laborersOf l / m.guardedProductivity l) /
        m.guardedDemand (.ofFin i) := by
  refine ⟨_, h.system_eq_ok, fun i => ?_⟩
  rw [Mat.get_mul, sumFin_eq_sum, ← sum_coefficient_mul]
  simp only [Mat.get_ofFn]

/-! ### Excess -/

variable {p : K}

end Market

end Workforce
