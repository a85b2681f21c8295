import Workforce.Proofs.Market.Phases
import Workforce.Proofs.Market.Reports
import Workforce.Proofs.Market.Ticks

/-!
# Reports are consistent and linked

A report belongs to one round of phases: its supplies per demand and its prices are those of its own
outputs and demands. The round starts from the laborers and the supplies per demand that the report
before it shows. Arithmetic and comparisons are left open, so all of this holds without a rounding
error.
-/

namespace Workforce.Market

variable {σ α : Type}
variable [LT σ] [OfScientific σ]

/-! ### Limits of productivity -/

/-- What limits a labor that needs some goods: the least share of one of them, and the first good
with that share. Nothing limits a labor that needs none. -/
inductive Limits (share : Good → σ) : List Good → σ × Option Good → Prop where
  | unlimited : Limits share [] (1.0, none)
  | limited (before : List Good) (g : Good) (after : List Good)
      (lt : ∀ g' ∈ before, share g < share g') (not_lt : ∀ g' ∈ after, ¬ share g' < share g) :
      Limits share (before ++ g :: after) (share g, some g)

lemma Limits.fst_mem {share : Good → σ} {gs : List Good} {p : σ × Option Good} {s : Set σ}
    (h : Limits share gs p) (hone : 1.0 ∈ s) (hshare : ∀ g, share g ∈ s) : p.1 ∈ s := by
  cases h with
  | unlimited => exact hone
  | limited _ g => exact hshare g

variable [Zero σ] [One σ] [DecidableLT σ]

/-- The scarcest input of a labor limits it. -/
lemma limits_scarcest (m : Market σ α) (l : Labor) :
    Limits m.share ((l.recipe : Recipe σ).inputs.map Prod.fst) (m.scarcest l) := by
  cases l with
  | lumberjack => exact .unlimited
  | carpenter => exact .limited [] .log [] (by simp) (by simp)
  | fisher => exact .limited [] .wood [] (by simp) (by simp)
  | hunter => exact .unlimited
  | cook =>
    by_cases h : m.share .meat < m.share .wood
    · have hscarcest : m.scarcest .cook = (m.share .meat, some .meat) := by
        simp [scarcest, Labor.recipe, h]
      rw [hscarcest]
      exact .limited [.wood] .meat [] (by simpa using h) (by simp)
    · have hscarcest : m.scarcest .cook = (m.share .wood, some .wood) := by
        simp [scarcest, Labor.recipe, h]
      rw [hscarcest]
      exact .limited [] .wood [.meat] (by simp) (by simpa using h)

/-! ### Reports -/

variable [Add σ] [Mul σ] [Div σ]

/-- The supplies per demand and the prices of a report are those of its outputs and demands. Every
good has all four. -/
structure IsConsistent (r : Market σ α) : Prop where
  demand_eq : r.demand = Table.tabulate Good.all r.demandOf
  output_eq : r.output = Table.tabulate Good.all r.outputOf
  available_eq : r.available =
    Table.tabulate Good.all fun g => r.outputOf g / larger (r.demandOf g) guard
  price_eq : r.price =
    Table.tabulate Good.all fun g => r.demandOf g / larger (r.outputOf g) guard

/-- What a report has from the report before it. Demands are what the laborers of that report use
up, but for food, of which every head eats half a unit. Productivities are limited by the supplies
per demand of that report, cut off at zero and one. Outputs are what its laborers produce then. -/
structure Follows (r r' : Market σ α) : Prop where
  demand_eq : r'.demand = Table.tabulate Good.all fun g =>
    if g = .food then r.population * 0.5
    else sumOver Recipe.inputs g fun l a => a * r.laborersOf l
  productivity_eq : ∃ limit : Labor → σ × Option Good,
    r'.productivity = Table.tabulate Labor.all limit ∧
      ∀ l, Limits (fun g => smaller (larger (r.availableOf g) 0.0) 1.0)
        ((l.recipe : Recipe σ).inputs.map Prod.fst) (limit l)
  output_eq : r'.output = Table.tabulate Good.all fun g =>
    sumOver Recipe.outputs g fun l a => a * r.laborersOf l * r'.productivityOf l

variable {r r' m m' : Market σ α}

lemma isConsistent_of_derived_eq (h : r.derived = m.round.derived) : r.IsConsistent := by
  have hdemand : r.demandOf = m.demandFor := funext (demandOf_of_derived_eq h)
  have houtput : r.outputOf = m.supplyFor := funext (outputOf_of_derived_eq h)
  rw [derived_round] at h
  obtain ⟨-, havailable, hprice, hdemands, houtputs, -⟩ := Derived.mk.injEq .. ▸ h
  constructor
  · rw [hdemand, hdemands]
  · rw [houtput, houtputs]
  · rw [hdemand, houtput, havailable]
  · rw [hdemand, houtput, hprice]

lemma follows_of_derived_eq (h : r'.derived = r.round.derived) : r.Follows r' := by
  have hproductivity : r'.productivityOf = fun l => (r.scarcest l).1 :=
    funext (productivityOf_of_derived_eq h)
  rw [derived_round] at h
  obtain ⟨hlimits, -, -, hdemands, houtputs, -⟩ := Derived.mk.injEq .. ▸ h
  constructor
  · rw [hdemands]
    exact congrArg _ (funext r.demandFor_eq)
  · exact ⟨r.scarcest, hlimits, r.limits_scarcest⟩
  · rw [hproductivity, houtputs]
    rfl

variable [BEq σ] [Steering σ α] [Zero α] [Add α] [Sub α] [Mul α] {solve : Solver σ α}

/-- A tick that succeeds reports the round that it starts with, and goes on from its report. -/
lemma derived_of_tickWith (h : m.tickWith solve = (m', .ok r)) :
    r.derived = m.round.derived ∧ { r with ticks := r.ticks + 1 } = m' := by
  obtain ⟨m₁, steps, hmoved, rfl, rfl⟩ := tickWith_eq_ok_iff.mp h
  obtain ⟨x, factor, -, -, rfl⟩ := redistributeWith_eq_ok_iff.mp hmoved
  exact ⟨rfl, rfl⟩

/-- In every run of ticks with any solver each report is consistent, and follows from the one before
it. -/
theorem reports_consistent (solve : Solver σ α) (m : Market σ α) (n : ℕ) :
    (∀ r ∈ (reportsFrom (tickWith solve) m n).1, r.IsConsistent) ∧
      (reportsFrom (tickWith solve) m n).1.IsChain Follows := by
  constructor
  · refine forall_mem_reportsFrom (I := fun _ => True) (fun m m' r _ ht => ?_) trivial n
    exact ⟨trivial, isConsistent_of_derived_eq (derived_of_tickWith ht).1⟩
  · refine isChain_reportsFrom (fun m m' m'' r r' ht ht' => ?_) m n
    obtain ⟨-, rfl⟩ := derived_of_tickWith ht
    -- the number of ticks is nothing that a round reads
    exact follows_of_derived_eq (derived_of_tickWith ht').1

end Workforce.Market
