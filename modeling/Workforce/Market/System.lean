import Workforce.Market.Phases

/-!
# The labor system

The redistribution of laborers is a linear least squares problem. Entry `(g, l)` of its matrix is
the amount of `g` that the recipe of `l` yields, divided by the productivity of `l` and by the
demand for `g`. Neither divisor is taken to be less than a small positive number. The right hand
side is the supply per demand that is aimed at.
-/

namespace Workforce.Market

variable {σ α : Type}
variable [Zero σ] [One σ] [Add σ] [Mul σ] [Div σ] [LT σ] [DecidableLT σ] [OfScientific σ]

/-- The matrix, right hand side and present allocation of a market. -/
structure System (α : Type) where
  A : Mat α 4 5
  b : Mat α 4 1
  x₀ : Mat α 5 1

/-- The productivity of a labor that its coefficients are divided by. -/
def guardedProductivity (m : Market σ α) (l : Labor) : σ := larger (m.productivityOf l) 0.1

/-- The demand for a good that its coefficients are divided by. -/
def guardedDemand (m : Market σ α) (g : Good) : σ := larger (m.demand.valueD g 0.0) guard

/-- What the recipe of a labor yields of a good, per productivity and demand. -/
def coefficient (m : Market σ α) (g : Good) (l : Labor) : σ :=
  match (l.recipe : Recipe σ).outputs.find? fun p => p.1 = g with
  | some (_, amount) => amount / m.guardedProductivity l / m.guardedDemand g
  | none => 0

variable [Steering σ α]

/-- A scalar as an entry of the system. -/
def entry (s : σ) : Except MarketError α := (entryOf s).mapError .solve

/-- The number of laborers of a labor that has to have one. -/
def allocated (m : Market σ α) (l : Labor) : Except MarketError σ :=
  match m.laborers.value? l with
  | some n => .ok n
  | none => .error (.missingLabor l)

/-- The labor system of a market. -/
def system (m : Market σ α) : Except MarketError (System α) := do
  let A ← Mat.ofFnM fun i j => entry (m.coefficient (.ofFin i) (.ofFin j))
  let b ← Mat.ofFnM fun _ _ => entry m.plan.target
  -- every labor has to be there before the first number is rounded
  let _ ← Labor.all.mapM m.allocated
  let x₀ ← Mat.ofFnM fun i _ => m.allocated (.ofFin i) >>= entry
  pure ⟨A, b, x₀⟩

end Workforce.Market
