import Workforce.CommandLine.Execution
import Workforce.Comparison
import Workforce.Request.Market

/-!
# The simulation

The simulation runs a market for some ticks and prints a block for each: a table of labors, a
table of goods and the steps of the solver, and a comparison of the two inverses if asked for. It
ends early when the labor system is singular.
-/

namespace Workforce.CommandLine

open Decimal Request

/-- The simulation as a program with a name. -/
def simulation (name : String) : Program where
  name
  description := "Run the labor allocation simulation"
  options :=
    [helpOption,
      ⟨"--ticks", .integer, "TICKS", "Number of ticks to run"⟩,
      ⟨"--pop", .real, "POP", "Population"⟩,
      dampingOption,
      ⟨"--with-inverse-check", .flag, "",
        "Compare the flow-based inverse with the exact one each tick"⟩]

/-! ### Lines -/

/-- A number with three places, in a column. -/
def inColumn (width : Nat) (q : Quantity) : String := padLeft width ' ' (fixedText 3 q.toFloat)

/-- A number as it stands in running text. -/
def inText (q : Quantity) : String := generalText 6 q.toFloat

/-- Texts in columns, each with its width, after a name. -/
def tableLine (nameWidth : Nat) (name : String) (columns : List (Nat × String)) : String :=
  let cells := columns.map fun (width, s) => padLeft width ' ' s
  "  " ++ " ".intercalate (padRight nameWidth name :: cells)

/-- A line of hyphens of the widths of columns. -/
def ruleLine (nameWidth : Nat) (widths : List Nat) : String :=
  let hyphens (n : Nat) : String := String.ofList (List.replicate n '-')
  tableLine nameWidth (hyphens nameWidth) (widths.map fun n => (n, hyphens n))

/-- A line as long as the header. -/
def doubleRule : String := String.ofList (List.replicate 60 '=')

/-- The lines at the beginning. -/
def headerLines (population : Quantity) (ticks : Int) (damping : Float) : List String :=
  [doubleRule, "  Labor Allocation Simulation", doubleRule,
    s!"  Population: {inText population}",
    s!"  Ticks:      {ticks}",
    s!"  Damping:    {generalText 6 damping}"]

/-- The line of a labor. -/
def laborLine (t : Town) (l : Labor) : String :=
  let (productivity, limiting) := t.productivity.valueD l (0.0, none)
  let limiting := match limiting with
    | some g => g.text
    | none => "-"
  tableLine 12 l.text
    [(10, inColumn 10 (t.laborers.valueD l 0.0)), (13, inColumn 13 productivity), (11, limiting)]

/-- The line of a good. -/
def goodLine (t : Town) (g : Good) : String :=
  let column (table : Table Good Quantity) : Nat × String := (10, inColumn 10 (table.valueD g 0.0))
  tableLine 6 g.text
    [column t.available, column t.laborValue, column t.price, column t.demand, column t.output]

/-- The line of a step of the solver. -/
def stepLine (o : Outcome Quantity Float32) : String :=
  let status := match o.scale with
    | some a => s!"alpha={inText a}"
    | none => "no progress"
  s!"  Solver: error {inText o.errorBefore} -> {inText o.errorAfter} ({status})"

/-- The table of labors. -/
def laborTable (t : Town) : List String :=
  ["", s!"--- Tick {t.ticks} ---",
    tableLine 12 "Labor" [(10, "Laborers"), (13, "Productivity"), (11, "Limited by")],
    ruleLine 12 [10, 13, 11]] ++ Labor.all.map (laborLine t)

/-- The table of goods. -/
def goodTable (t : Town) : List String :=
  ["", tableLine 6 "Good"
      [(10, "Available"), (10, "Labor val"), (10, "Price"), (10, "Demand"), (10, "Output")],
    ruleLine 6 [10, 10, 10, 10, 10]] ++ Good.all.map (goodLine t)

/-- The line of the idle part of the population. -/
def idleLine (t : Town) : String :=
  s!"  Idle: {fixedText 1 t.idlePercent.toFloat}% of pop {inText t.population}"

/-! ### Comparison of inverses -/

/-- The outcome of a comparison of the two inverses. -/
inductive Check where
  | compared (depth : Int) (deviation defect : Quantity)
  | skipped (e : InversionError)

def Check.line : Check → String
  | compared depth deviation defect =>
    s!"  Flow inverse (depth {depth}): max deviation {inText deviation}, |A·X - I|² {inText defect}"
  | skipped e => s!"  Flow inverse check skipped: {e.message}"

variable [LinearSolver Float32]

/-- Compare the two inverses of the matrix of the labor system. -/
def check (t : Town) (depth : Int) (damping : Quantity) : Answer Check := do
  let s ← t.system.mapError .market
  match s.A.compareInverses depth.toNat (← Answer.ofSolve (entryOf damping)) with
  | .ok c =>
    pure (.compared depth (.real (widen c.deviation)) (.real (widen c.residual)))
  | .error e => if e.isSingular then pure (.skipped e) else .error (.solve (.inversion e))

/-! ### Ticks -/

/-- The block of one tick. -/
structure TickBlock where
  report : Town
  check : Option Check

namespace TickBlock

/-- The lines of a block. -/
def lines (b : TickBlock) : List String :=
  laborTable b.report ++ [idleLine b.report] ++ goodTable b.report ++
    b.report.lastSteps.map stepLine ++ b.check.toList.map Check.line

end TickBlock

/-- How a simulation ends. -/
inductive SimulationEnding where
  /-- All ticks have run. -/
  | finished
  /-- The labor system of a tick was singular. -/
  | singular (tick : Nat) (e : InversionError)
  /-- An error got out, after the last lines. -/
  | broken (lines : List String) (e : RequestError)

/-- The blocks of a simulation and its end. -/
structure Simulated where
  blocks : List TickBlock
  ending : SimulationEnding

/-- Put a block in front. -/
def Simulated.cons (b : TickBlock) (s : Simulated) : Simulated := ⟨b :: s.blocks, s.ending⟩

/-- What a simulation needs to know besides its market. -/
structure SimulationPlan where
  damping : Quantity
  /-- The depth of the flow inverse, if the inverses are compared. -/
  checkDepth : Option Int

/-- The block of a tick that has succeeded. -/
def block (plan : SimulationPlan) (next report : Town) : Except SimulationEnding TickBlock :=
  if report.population == 0 then .error (.broken (laborTable report) (.market .divisionByZero))
  else
    match plan.checkDepth with
    | none => .ok ⟨report, none⟩
    | some depth =>
      match check next depth plan.damping with
      | .ok c => .ok ⟨report, some c⟩
      | .error e => .error (.broken (TickBlock.lines ⟨report, none⟩) e)

/-- Run a market for some ticks. -/
def simulate (plan : SimulationPlan) (t : Town) : (ticks : Nat) → Simulated
  | 0 => ⟨[], .finished⟩
  | ticks + 1 =>
    match t.tick with
    | (_, .error (.solve (.inversion e))) =>
      if e.isSingular then ⟨[], .singular t.ticks e⟩
      else ⟨[], .broken [] (.solve (.inversion e))⟩
    | (_, .error e) => ⟨[], .broken [] (.market e)⟩
    | (next, .ok report) =>
      match block plan next report with
      | .error ending => ⟨[], ending⟩
      | .ok b => (simulate plan next ticks).cons b

/-- The last lines of a simulation, and how the program ends. -/
def SimulationEnding.close : SimulationEnding → List String × Ending
  | finished => (["", doubleRule], .exit 0)
  | singular tick e =>
    (["", s!"  ERROR at tick {tick}: {e.message}",
      "  Increase --beta to regularize the normal equations."], .exit 1)
  | broken lines e => (lines, .failure e)

/-- The execution of a simulation after its header. -/
def Simulated.execution (header : List String) (s : Simulated) : Execution :=
  let (last, ending) := s.ending.close
  .ofLines ending (header ++ s.blocks.flatMap TickBlock.lines ++ last)

/-- Run the simulation with the values of its options. -/
def runSimulation (env : Environment) (settings : Settings) (values : List (String × OptionValue)) :
    Except UsageError Execution :=
  let ticks := Invocation.integerD values "--ticks" 100
  let population := Invocation.realD values "--pop" settings.population
  let damping := Invocation.realD values "--beta" settings.damping
  if ticks < 0 then .error (.negative "--ticks")
  else if damping < 0 then .error (.negative "--beta")
  else
    let founded : Answer Town := do
      let s ← descent env { damping := some (.real damping) }
      Session.town <$> foundFromSettings env settings (some (.real population)) none (some s)
    match founded with
    | .error e => .ok (.failed e)
    | .ok t =>
      let depth := if Invocation.isGiven values "--with-inverse-check" then some settings.depth
        else none
      .ok ((simulate ⟨.real damping, depth⟩ t ticks.toNat).execution
        (headerLines t.population ticks damping))

/-- The simulation, started under a name. -/
def executeSimulation (name : String) (env : Environment) (arguments : List String) : Execution :=
  (simulation name).execute env arguments (runSimulation env)

end Workforce.CommandLine
