import Workforce.Descent.Parameters
import Workforce.Market.Recipe
import Workforce.Market.Table

/-!
# Markets

The state of a simulated market: the population and its laborers, what is known of every good,
and how laborers are redistributed. Scalars are of type `σ`, the entries of the labor system of
type `α`.
-/

namespace Workforce

/-- Divisions by a supply, demand or volume are guarded from below by this number. -/
def guard {σ : Type} [OfScientific σ] : σ := 0.00001

/-- How laborers are redistributed. -/
structure Plan (σ : Type) [Zero σ] [One σ] [LT σ] where
  /-- The supply per demand that is aimed at. -/
  target : σ
  /-- The least number of laborers of every labor. -/
  minAllocation : σ
  /-- The number of steps of descent in a tick, as it was given. It is checked when it is used. -/
  steps : Literal
  jacobianScale : σ
  descent : Descent σ

/-- The state of a market. -/
structure Market (σ α : Type) [Zero σ] [One σ] [LT σ] where
  plan : Plan σ
  population : σ
  laborers : Table Labor σ
  /-- The share of its scarcest input that each labor received, and that input. -/
  productivity : Table Labor (σ × Option Good) := []
  /-- Supply per demand. -/
  available : Table Good σ := []
  /-- Hours of labor in a unit. -/
  laborValue : Table Good σ := []
  /-- Demand per supply. -/
  price : Table Good σ := []
  output : Table Good σ := []
  demand : Table Good σ := []
  ticks : Nat := 0
  lastSteps : List (Outcome σ α) := []

/-- Why a tick fails. -/
inductive MarketError where
  /-- A labor has no number of laborers. -/
  | missingLabor (l : Labor)
  | divisionByZero
  /-- A number of steps that cannot be taken. -/
  | parameter (e : ParameterError)
  | solve (e : SolveError)

namespace MarketError

def message : MarketError → String
  | missingLabor l => s!"<Labor.{l.text}: '{l.text}'>"
  | divisionByZero => "float division by zero"
  | parameter e => e.message
  | solve e => e.message

end MarketError

namespace Market

variable {σ α : Type} [Zero σ] [One σ] [LT σ]

/-- All laborers, added in the order of the table. -/
def totalLaborers [Add σ] (m : Market σ α) : σ := m.laborers.values.foldl (· + ·) 0

/-- The part of the population, in percent, that has no labor. -/
def idlePercent [Add σ] [Sub σ] [Mul σ] [Div σ] [OfScientific σ] (m : Market σ α) : σ :=
  100.0 * (m.population - m.totalLaborers) / m.population

end Market

end Workforce
