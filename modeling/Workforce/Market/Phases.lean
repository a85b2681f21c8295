import Workforce.Market.Basic
import Workforce.Number.Order

/-!
# Supply, demand and labor values

Two phases of a tick follow from the state alone. The first derives how productive each labor is,
from the goods that are available to it, and then the demand, supply and price of each good. The
second passes labor values one step along the supply chain.
-/

namespace Workforce.Market

variable {σ α : Type}
variable [Zero σ] [One σ] [Add σ] [Mul σ] [Div σ] [LT σ] [DecidableLT σ] [OfScientific σ]

/-- What all labors together contribute to a good, added in the order of the labors. -/
def total (contributions : Labor → List (Good × σ)) (g : Good) : σ :=
  ((Labor.all.flatMap contributions).filter fun p => p.1 = g).foldl (fun s p => s + p.2) 0.0

/-- The part of the demand for a good that can be met, between `0` and `1`. -/
def share (m : Market σ α) (g : Good) : σ :=
  smaller (larger (m.available.valueD g 0.0) 0.0) 1.0

/-- How productive a labor is: the smallest share of its inputs, and the first input with that
share. A labor without inputs is fully productive. -/
def scarcest (m : Market σ α) (l : Labor) : σ × Option Good :=
  match (l.recipe : Recipe σ).inputs with
  | [] => (1.0, none)
  | (g, _) :: rest =>
    rest.foldl (fun best p => if m.share p.1 < best.1 then (m.share p.1, some p.1) else best)
      (m.share g, some g)

/-- Derive the productivity of some labors. -/
def deriveProductivity (m : Market σ α) (labors : List Labor) : Market σ α :=
  { m with productivity := labors.foldl (fun t l => Table.put t l (m.scarcest l)) m.productivity }

/-- The number of laborers of a labor. -/
def laborersOf (m : Market σ α) (l : Labor) : σ := m.laborers.valueD l 0.0

/-- The productivity that a labor is known to have. -/
def productivityOf (m : Market σ α) (l : Labor) : σ := (m.productivity.valueD l (0.0, none)).1

/-- What a labor uses up of each of its inputs. -/
def uses (m : Market σ α) (l : Labor) : List (Good × σ) :=
  (l.recipe : Recipe σ).inputs.map fun (g, amount) => (g, amount * m.laborersOf l)

/-- What a labor produces at a productivity. -/
def yields (m : Market σ α) (productivity : Labor → σ) (l : Labor) : List (Good × σ) :=
  (l.recipe : Recipe σ).outputs.map fun (g, amount) =>
    (g, amount * m.laborersOf l * productivity l)

/-- The demand for a good: half a unit of food a head, and otherwise what recipes use up. -/
def demandFor (m : Market σ α) (g : Good) : σ :=
  if g = .food then m.population * 0.5 else total m.uses g

/-- Derive productivities, demand, supply per demand and prices. -/
def deriveAvailable (m : Market σ α) : Market σ α :=
  let productivity := Table.tabulate Labor.all m.scarcest
  let supply := Table.tabulate Good.all
    (total (m.yields fun l => (productivity.valueD l (0.0, none)).1))
  let demand := Table.tabulate Good.all m.demandFor
  { m with
    productivity
    demand
    available := Table.tabulate Good.all fun g =>
      supply.valueD g 0.0 / larger (demand.valueD g 0.0) guard
    price := Table.tabulate Good.all fun g =>
      demand.valueD g 0.0 / larger (supply.valueD g 0.0) guard }

/-- The labor value of what one laborer uses up in a tick. -/
def inputValue (m : Market σ α) (l : Labor) : σ :=
  ((l.recipe : Recipe σ).inputs.map fun (g, amount) => m.laborValue.valueD g 0.0 * amount).foldl
    (· + ·) 0

/-- The labor value that a labor contributes to each of its outputs: that of its inputs and its
own time, spread over its volume. -/
def valueAdded (m : Market σ α) (l : Labor) : List (Good × σ) :=
  (m.yields m.productivityOf l).map fun (g, volume) =>
    (g, (m.inputValue l + 1.0) / larger volume guard)

/-- Derive outputs, and labor values from those of the inputs. -/
def deriveLaborValues (m : Market σ α) : Market σ α :=
  let produced := Table.tabulate Good.all (total (m.yields m.productivityOf))
  { m with
    output := produced
    laborValue := Table.tabulate Good.all fun g =>
      total m.valueAdded g / larger (produced.valueD g 0.0) guard }

end Workforce.Market
