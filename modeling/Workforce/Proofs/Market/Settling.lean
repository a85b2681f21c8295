import Workforce.Proofs.Market.Cap
import Workforce.Proofs.Market.Phases

/-!
# Rounds settle along the supply chain

Goods are made in stages, each from goods of earlier stages. A round derives what is known of a good
from what was known of the inputs of the labors that make it. So after as many rounds as there are
stages the derived tables depend on nothing but the laborers and the population, and stay as they
are. No law of the arithmetic is used.
-/

namespace Workforce

variable {σ α : Type}

/-- How many goods come before a good in the supply chain. -/
def Good.stage : Good → ℕ
  | log => 0
  | wood => 1
  | meat => 2
  | food => 3

namespace Labor

variable [OfScientific σ]

/-- Goods are made from goods of earlier stages. -/
lemma stage_lt_of_mem (l : Labor) : ∀ p ∈ (l.recipe : Recipe σ).inputs,
    ∀ q ∈ (l.recipe : Recipe σ).outputs, p.1.stage < q.1.stage := by
  cases l <;> simp [recipe, Good.stage]

/-- Nothing is made from the goods of the last stage. -/
lemma stage_lt_three_of_mem (l : Labor) : ∀ p ∈ (l.recipe : Recipe σ).inputs, p.1.stage < 3 := by
  cases l <;> simp [recipe, Good.stage]

end Labor

namespace Market

variable [Zero σ] [One σ] [LT σ] [OfScientific σ]

/-- Two markets with the same laborers and population that know the same of the goods of the first
`k` stages. -/
structure AgreeBelow (k : ℕ) (m m' : Market σ α) : Prop where
  laborersOf_eq : m.laborersOf = m'.laborersOf
  population_eq : m.population = m'.population
  availableOf_eq : ∀ g, g.stage < k → m.availableOf g = m'.availableOf g
  laborValueOf_eq : ∀ g, g.stage < k → m.laborValueOf g = m'.laborValueOf g

variable {k : ℕ} {m m' : Market σ α}

namespace AgreeBelow

lemma scarcest_eq [DecidableLT σ] (h : AgreeBelow k m m') {l : Labor}
    (hl : ∀ p ∈ (l.recipe : Recipe σ).inputs, p.1.stage < k) : m.scarcest l = m'.scarcest l := by
  have hshare : ∀ p ∈ (l.recipe : Recipe σ).inputs, m.share p.1 = m'.share p.1 := by
    intro p hp
    have havailable := h.availableOf_eq p.1 (hl p hp)
    unfold availableOf at havailable
    rw [share, share, havailable]
  rw [scarcest, scarcest]
  cases hinputs : (l.recipe : Recipe σ).inputs with
  | nil => rfl
  | cons p rest =>
    rw [hinputs] at hshare
    obtain ⟨hp, hrest⟩ := List.forall_mem_cons.mp hshare
    simp only [hp]
    exact List.foldl_ext _ _ _ fun best q hq => by rw [hrest q hq]

variable [Add σ] [Mul σ]

lemma inputValue_eq (h : AgreeBelow k m m') {l : Labor}
    (hl : ∀ p ∈ (l.recipe : Recipe σ).inputs, p.1.stage < k) :
    m.inputValue l = m'.inputValue l := by
  rw [inputValue, inputValue]
  congr 1
  refine List.map_congr_left fun p hp => ?_
  have hvalue := h.laborValueOf_eq p.1 (hl p hp)
  unfold laborValueOf at hvalue
  simp only [hvalue]

lemma demandFor_eq (h : AgreeBelow k m m') (g : Good) : m.demandFor g = m'.demandFor g := by
  rw [Market.demandFor_eq, Market.demandFor_eq, h.population_eq, h.laborersOf_eq]

variable [DecidableLT σ]

/-- The supply of a good depends on what is known of earlier stages. -/
lemma supplyFor_eq (h : AgreeBelow k m m') {g : Good} (hg : g.stage ≤ k) :
    m.supplyFor g = m'.supplyFor g := by
  refine sumOver_congr fun l a ha => ?_
  have hl := fun p hp => (l.stage_lt_of_mem p hp (g, a) ha).trans_le hg
  rw [h.laborersOf_eq, h.scarcest_eq hl]

variable [Div σ]

/-- The labor value of a good depends on what is known of earlier stages. -/
lemma valueFor_eq (h : AgreeBelow k m m') {g : Good} (hg : g.stage ≤ k) :
    m.valueFor g = m'.valueFor g := by
  refine sumOver_congr fun l a ha => ?_
  have hl := fun p hp => (l.stage_lt_of_mem p hp (g, a) ha).trans_le hg
  rw [h.laborersOf_eq, h.scarcest_eq hl, h.inputValue_eq hl]

/-- A round passes agreement on to the next stage. -/
lemma round (h : AgreeBelow k m m') : AgreeBelow (k + 1) m.round m'.round where
  laborersOf_eq := h.laborersOf_eq
  population_eq := h.population_eq
  availableOf_eq g hg := by
    rw [availableOf_of_derived_eq rfl, availableOf_of_derived_eq rfl, h.demandFor_eq,
      h.supplyFor_eq (Nat.lt_succ_iff.mp hg)]
  laborValueOf_eq g hg := by
    rw [laborValueOf_of_derived_eq rfl, laborValueOf_of_derived_eq rfl,
      h.supplyFor_eq (Nat.lt_succ_iff.mp hg), h.valueFor_eq (Nat.lt_succ_iff.mp hg)]

lemma iterate (h : AgreeBelow 0 m m') (k : ℕ) :
    AgreeBelow k (Market.round^[k] m) (Market.round^[k] m') := by
  induction k with
  | zero => exact h
  | succ k ih =>
    rw [Function.iterate_succ_apply', Function.iterate_succ_apply']
    exact ih.round

/-- Agreement on the inputs of all labors decides everything that a round derives. -/
lemma derived_round_eq (h : AgreeBelow 3 m m') : m.round.derived = m'.round.derived := by
  have hstage (g : Good) : g.stage ≤ 3 := by cases g <;> decide
  have hscarcest : m.scarcest = m'.scarcest :=
    funext fun l => h.scarcest_eq l.stage_lt_three_of_mem
  have hdemand : m.demandFor = m'.demandFor := funext h.demandFor_eq
  have hsupply : m.supplyFor = m'.supplyFor := funext fun g => h.supplyFor_eq (hstage g)
  have hvalue : m.valueFor = m'.valueFor := funext fun g => h.valueFor_eq (hstage g)
  rw [derived_round, derived_round, hscarcest, hdemand, hsupply, hvalue]

end AgreeBelow

variable [Add σ] [Mul σ] [Div σ] [DecidableLT σ]

/-- Rounds leave the laborers and the population. -/
lemma laborersOf_iterate_round (m : Market σ α) (n : ℕ) :
    (Market.round^[n] m).laborersOf = m.laborersOf ∧
      (Market.round^[n] m).population = m.population := by
  induction n with
  | zero => exact ⟨rfl, rfl⟩
  | succ n ih =>
    rw [Function.iterate_succ_apply']
    exact ih

/-- From four rounds on, everything that is derived is what four rounds derive from any other market
with the same laborers and population. -/
theorem derived_iterate_round (hlaborers : m.laborersOf = m'.laborersOf)
    (hpopulation : m.population = m'.population) {n : ℕ} (hn : 4 ≤ n) :
    (Market.round^[n] m).derived = (Market.round^[4] m').derived := by
  obtain ⟨k, rfl⟩ := Nat.exists_eq_add_of_le hn
  obtain ⟨hl, hp⟩ := laborersOf_iterate_round m k
  have h : AgreeBelow 0 (Market.round^[k] m) m' :=
    ⟨hl.trans hlaborers, hp.trans hpopulation, fun g hg => absurd hg (Nat.not_lt_zero _),
      fun g hg => absurd hg (Nat.not_lt_zero _)⟩
  rw [Function.iterate_add_apply, Function.iterate_succ_apply', Function.iterate_succ_apply']
  exact (h.iterate 3).derived_round_eq

/-- The town of ten, with wrong notions of its goods. -/
def misinformedTown : Market ℚ ℚ :=
  { townOfTen with
    productivity := [(.cook, (-7, some .food))]
    available := [(.wood, -3), (.log, 1 / 2)]
    laborValue := Table.tabulate Good.all fun _ => -1000
    output := [(.meat, 12)]
    ticks := 9 }

/-- Seven rounds of the town of ten and four of the misinformed one come to the same. -/
theorem derived_iterate_round_misinformedTown :
    townOfTen.laborersOf = misinformedTown.laborersOf ∧
      townOfTen.population = misinformedTown.population ∧ 4 ≤ 7 ∧
      (Market.round^[7] townOfTen).derived = (Market.round^[4] misinformedTown).derived := by
  have hlaborers : townOfTen.laborersOf = misinformedTown.laborersOf := rfl
  have hpopulation : townOfTen.population = misinformedTown.population := rfl
  exact ⟨hlaborers, hpopulation, by decide,
    derived_iterate_round hlaborers hpopulation (by decide)⟩

end Market

end Workforce
