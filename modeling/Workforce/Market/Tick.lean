import Workforce.Market.System

/-!
# Ticks

A tick derives supply and labor values, and then moves laborers toward the supply per demand that
is aimed at: the solution of the labor system is scaled down to the population and no labor falls
below its least allocation. The solver of the labor system is a parameter. A tick that fails in
the solver leaves the laborers as they are.
-/

namespace Workforce.Market

variable {σ α : Type}
variable [Zero σ] [One σ] [Add σ] [Sub σ] [Mul σ] [Div σ] [LT σ] [DecidableLT σ] [BEq σ]
variable [OfScientific σ] [Steering σ α]

/-- A solver of least squares problems: the steps that it takes from a starting point. -/
abbrev Solver (σ α : Type) : Type :=
  Problem α → Grid α → Except MarketError (List (Outcome σ α))

/-- Replace the laborers by a solution of the labor system. -/
def allocate (m : Market σ α) (x : Grid α) : Market σ α :=
  { m with
    laborers := (List.finRange 5).foldl (fun t (i : Fin 5) =>
      match x.get? i 0 with
      | some a => Table.put t (Labor.ofFin i) (Steering.ofEntry a)
      | none => t) m.laborers }

/-- The factor that scales the laborers down to the population. -/
def workforceFactor (m : Market σ α) : Except MarketError σ := do
  let all := m.totalLaborers
  if m.population < all then
    -- a population out of range cannot be divided
    let _ ← (entry m.population : Except MarketError α)
    if all == 0 then .error .divisionByZero else pure (m.population / all)
  else pure 1.0

/-- Scale all laborers, and raise those below the least allocation to it. -/
def rescale (m : Market σ α) (factor : σ) : Market σ α :=
  { m with
    laborers := Labor.all.foldl (fun t l =>
      match t.value? l with
      | some n => Table.put t l (larger (n * factor) m.plan.minAllocation)
      | none => t) m.laborers }

/-- The solution of the labor system, and the steps of the solver that lead to it. -/
def solveSystem [Add α] [Sub α] [Mul α] [Zero α] (solve : Solver σ α) (m : Market σ α) :
    Except MarketError (Grid α × List (Outcome σ α)) := do
  let s ← m.system
  let k ← entry m.plan.jacobianScale
  let p ← (checked (Problem.linear ⟨s.A⟩ ⟨s.b⟩ k)).mapError .solve
  let steps ← solve p ⟨s.x₀⟩
  pure (Outcome.lastPoint ⟨s.x₀⟩ steps, steps)

/-- Move laborers toward the supply per demand that is aimed at. The market after it, and the
steps of the solver. -/
def redistributeWith [Add α] [Sub α] [Mul α] [Zero α] (solve : Solver σ α) (m : Market σ α) :
    Market σ α × Except MarketError (List (Outcome σ α)) :=
  match m.solveSystem solve with
  | .error e => (m, .error e)
  | .ok (x, steps) =>
    let m := m.allocate x
    match m.workforceFactor with
    | .error e => (m, .error e)
    | .ok factor => (m.rescale factor, .ok steps)

/-- One tick. The market after it, and the market as it is reported if it succeeds. -/
def tickWith [Add α] [Sub α] [Mul α] [Zero α] (solve : Solver σ α) (m : Market σ α) :
    Market σ α × Except MarketError (Market σ α) :=
  let (m, result) := redistributeWith solve m.deriveAvailable.deriveLaborValues
  match result with
  | .error e => (m, .error e)
  | .ok steps =>
    let m := { m with lastSteps := steps }
    ({ m with ticks := m.ticks + 1 }, .ok m)

section

variable [LE σ] [DecidableLE σ]
variable [Zero α] [One α] [Add α] [Sub α] [Mul α] [Neg α] [Inverter α]

/-- The solver of a plan: its descent, for its number of steps. -/
def planned (plan : Plan σ) : Solver σ α := fun p x => do
  let n ← plan.steps.steps.mapError .parameter
  (plan.descent.iterate p x n).mapError .solve

/-- Move laborers with the solver of the plan. -/
def redistribute (m : Market σ α) : Market σ α × Except MarketError (List (Outcome σ α)) :=
  redistributeWith (planned m.plan) m

/-- One tick with the solver of the plan. -/
def tick (m : Market σ α) : Market σ α × Except MarketError (Market σ α) :=
  tickWith (planned m.plan) m

end

end Workforce.Market
