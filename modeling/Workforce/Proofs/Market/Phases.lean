import Workforce.Market.Phases
import Workforce.Proofs.Market.Table

/-!
# What a round of phases derives

A round of the two phases writes six tables anew, for all labors and all goods at once. They follow
from the laborers, the population, and the supply and labor values that were known before. The
supply from which prices are made is the output that is recorded after it.
-/

namespace Workforce

variable {σ α : Type}

/-! ### Sums over recipes -/

section

variable [OfScientific σ] {entries : Recipe σ → List (Good × σ)} {g : Good}

/-- The amounts of a good among the entries of the recipes of all labors, in order. -/
def amountsOf (entries : Recipe σ → List (Good × σ)) (g : Good) : List (Labor × σ) :=
  Labor.all.flatMap fun l => ((entries l.recipe).filter fun p => p.1 = g).map fun p => (l, p.2)

lemma mem_amountsOf {l : Labor} {a : σ} :
    (l, a) ∈ amountsOf entries g ↔ (g, a) ∈ entries l.recipe := by
  simp [amountsOf, Labor.mem_all]

variable [Add σ]

/-- The sum of `f l a`, from zero on, over the amounts `a` of a good and their labors `l`. -/
def sumOver (entries : Recipe σ → List (Good × σ)) (g : Good) (f : Labor → σ → σ) : σ :=
  ((amountsOf entries g).map fun p => f p.1 p.2).foldl (· + ·) 0.0

/-- A sum takes notice only of the labors that have an entry of the good. -/
lemma sumOver_congr {f f' : Labor → σ → σ}
    (h : ∀ l a, (g, a) ∈ entries l.recipe → f l a = f' l a) :
    sumOver entries g f = sumOver entries g f' := by
  unfold sumOver
  congr 1
  exact List.map_congr_left fun p hp => h p.1 p.2 (mem_amountsOf.mp hp)

lemma Market.total_map (entries : Recipe σ → List (Good × σ)) (f : Labor → σ → σ) (g : Good) :
    total (fun l => (entries l.recipe).map fun (g, a) => (g, f l a)) g = sumOver entries g f := by
  rw [total, sumOver, amountsOf, List.filter_flatMap, ← List.foldl_map, List.map_flatMap,
    List.map_flatMap]
  simp only [List.filter_map, List.map_map]
  rfl

end

namespace Market

variable [Zero σ] [One σ] [LT σ] [OfScientific σ]

/-! ### What is known of a good -/

def availableOf (m : Market σ α) (g : Good) : σ := m.available.valueD g 0.0

def laborValueOf (m : Market σ α) (g : Good) : σ := m.laborValue.valueD g 0.0

def demandOf (m : Market σ α) (g : Good) : σ := m.demand.valueD g 0.0

def priceOf (m : Market σ α) (g : Good) : σ := m.price.valueD g 0.0

def outputOf (m : Market σ α) (g : Good) : σ := m.output.valueD g 0.0

/-- The tables that a round of phases writes. -/
structure Derived (σ : Type) where
  productivity : Table Labor (σ × Option Good)
  available : Table Good σ
  price : Table Good σ
  demand : Table Good σ
  output : Table Good σ
  laborValue : Table Good σ

/-- The derived tables of a market. -/
def derived (m : Market σ α) : Derived σ :=
  ⟨m.productivity, m.available, m.price, m.demand, m.output, m.laborValue⟩

/-! ### Sums of a market -/

variable [Add σ] [Mul σ]

lemma demandFor_eq (m : Market σ α) (g : Good) :
    m.demandFor g = if g = .food then m.population * 0.5
      else sumOver Recipe.inputs g fun l a => a * m.laborersOf l := by
  rw [demandFor, ← total_map Recipe.inputs fun l a => a * m.laborersOf l]
  rfl

lemma total_yields (m : Market σ α) (productivity : Labor → σ) (g : Good) :
    total (m.yields productivity) g =
      sumOver Recipe.outputs g fun l a => a * m.laborersOf l * productivity l := by
  rw [← total_map Recipe.outputs fun l a => a * m.laborersOf l * productivity l]
  rfl

variable [Div σ] [DecidableLT σ]

lemma total_valueAdded (m : Market σ α) (g : Good) :
    total m.valueAdded g = sumOver Recipe.outputs g fun l a =>
      (m.inputValue l + 1.0) / larger (a * m.laborersOf l * m.productivityOf l) guard := by
  rw [← total_map Recipe.outputs fun l a =>
    (m.inputValue l + 1.0) / larger (a * m.laborersOf l * m.productivityOf l) guard]
  unfold total valueAdded yields
  simp only [List.map_map]
  rfl

/-- What all labors produce of a good, each as productive as its scarcest input lets it be. -/
def supplyFor (m : Market σ α) (g : Good) : σ :=
  sumOver Recipe.outputs g fun l a => a * m.laborersOf l * (m.scarcest l).1

/-- The labor values that all labors contribute to a good, each spread over its own volume. -/
def valueFor (m : Market σ α) (g : Good) : σ :=
  sumOver Recipe.outputs g fun l a =>
    (m.inputValue l + 1.0) / larger (a * m.laborersOf l * (m.scarcest l).1) guard

/-! ### A round -/

/-- Both phases of a tick. -/
def round (m : Market σ α) : Market σ α := m.deriveAvailable.deriveLaborValues

lemma productivityOf_deriveAvailable (m : Market σ α) (l : Labor) :
    m.deriveAvailable.productivityOf l = (m.scarcest l).1 :=
  congrArg Prod.fst (Table.valueD_tabulate (Labor.mem_all l) m.scarcest _)

/-- The tables of a round: productivities from what was available, supply and demand from these and
the laborers, and labor values from those that the inputs had. -/
theorem derived_round (m : Market σ α) : m.round.derived =
    { productivity := Table.tabulate Labor.all m.scarcest
      available := Table.tabulate Good.all fun g => m.supplyFor g / larger (m.demandFor g) guard
      price := Table.tabulate Good.all fun g => m.demandFor g / larger (m.supplyFor g) guard
      demand := Table.tabulate Good.all m.demandFor
      output := Table.tabulate Good.all m.supplyFor
      laborValue := Table.tabulate Good.all fun g =>
        m.valueFor g / larger (m.supplyFor g) guard } := by
  have hsupply : total (m.deriveAvailable.yields m.deriveAvailable.productivityOf) =
      m.supplyFor := by
    funext g
    simp only [total_yields, productivityOf_deriveAvailable]
    rfl
  have hvalue : total m.deriveAvailable.valueAdded = m.valueFor := by
    funext g
    simp only [total_valueAdded, productivityOf_deriveAvailable]
    rfl
  -- the first phase looks its productivities up in the table that it has just made
  have hproduced : total (m.yields fun l =>
      ((Table.tabulate Labor.all m.scarcest).valueD l (0.0, none)).1) = m.supplyFor := hsupply
  simp only [derived, round, deriveLaborValues, hsupply, hvalue]
  simp only [deriveAvailable, hproduced, Table.valueD_tabulate (Good.mem_all _)]

section

variable {r m : Market σ α} (h : r.derived = m.round.derived)
include h

lemma productivityOf_of_derived_eq (l : Labor) : r.productivityOf l = (m.scarcest l).1 := by
  change (r.derived.productivity.valueD l (0.0, none)).1 = _
  simp only [h, derived_round, Table.valueD_tabulate (Labor.mem_all l)]

lemma availableOf_of_derived_eq (g : Good) :
    r.availableOf g = m.supplyFor g / larger (m.demandFor g) guard := by
  change r.derived.available.valueD g 0.0 = _
  simp only [h, derived_round, Table.valueD_tabulate (Good.mem_all g)]

lemma priceOf_of_derived_eq (g : Good) :
    r.priceOf g = m.demandFor g / larger (m.supplyFor g) guard := by
  change r.derived.price.valueD g 0.0 = _
  simp only [h, derived_round, Table.valueD_tabulate (Good.mem_all g)]

lemma demandOf_of_derived_eq (g : Good) : r.demandOf g = m.demandFor g := by
  change r.derived.demand.valueD g 0.0 = _
  simp only [h, derived_round, Table.valueD_tabulate (Good.mem_all g)]

lemma outputOf_of_derived_eq (g : Good) : r.outputOf g = m.supplyFor g := by
  change r.derived.output.valueD g 0.0 = _
  simp only [h, derived_round, Table.valueD_tabulate (Good.mem_all g)]

lemma laborValueOf_of_derived_eq (g : Good) :
    r.laborValueOf g = m.valueFor g / larger (m.supplyFor g) guard := by
  change r.derived.laborValue.valueD g 0.0 = _
  simp only [h, derived_round, Table.valueD_tabulate (Good.mem_all g)]

end

end Market

end Workforce
