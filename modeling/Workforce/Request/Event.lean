import Workforce.Request.Market

/-!
# Events of markets

A market answers events: phases and ticks, which move it on, and assignments to its fields. A phase
computes with real numbers, so it ends where it meets an integer that is out of their range or a
population that is no number. The market keeps what was derived before that.
-/

namespace Workforce.Request

/-- What can happen to a market. -/
inductive Event where
  | state
  | deriveAvailable
  | deriveLaborValues
  | system
  | redistribute
  | tick
  | snapshot
  | setPopulation (l : Literal)
  | setLaborers (t : GivenTable)
  | setAvailable (t : GivenTable)
  | setLaborValue (t : GivenTable)
  | setDemand (t : GivenTable)
  /-- Labors with their productivity and the good that limits it. -/
  | setProductivity (rows : List (String × Literal × Literal))

/-- What an event is answered with. -/
inductive EventAnswer where
  | state (t : Town) (population : Float)
  | system (s : Market.System Float32)
  | steps (t : Town) (steps : List (Outcome Quantity Float32))
  | report (t : Town) (population : Float) (idle : Quantity)

/-- Numbers that are out of the range of real numbers cannot be computed with. -/
def inRange (qs : List Quantity) : Answer Unit :=
  if qs.all Quantity.fits then .ok () else .error (.conversion .tooLarge)

/-! ### Reports -/

/-- A population as a real number. -/
def realPopulation (population : Literal) : Answer Float := population.toNumber.mapError .conversion

/-- The productivities of all labors that have one. -/
def productivities (t : Town) : List Quantity := t.productivity.values.map Prod.fst

/-- The state of a session. -/
def stateOf (s : Session) : Answer EventAnswer := do
  let population ← realPopulation s.population
  inRange (productivities s.town)
  pure (.state s.town population)

/-- The part of a population, in percent, that has no labor. -/
def idlePercent (population : Literal) (laborers : List Quantity) : Answer Quantity := do
  let idle ← laborers.foldlM (fun s q => Literal.add s (.number q)) (.whole 0)
    >>= population.sub >>= Literal.mul (.real 100.0) |>.mapError .operand
  match idle, population with
  | .number idle, .number all =>
    if all == 0 then .error (.market .divisionByZero) else pure (idle / all)
  | idle, all => .error (.operand (.unsupported "/" idle.kind all.kind))

/-- The report of a town whose population was set to a literal. -/
def reportOf (t : Town) (population : Literal) : Answer EventAnswer := do
  let real ← realPopulation population
  let idle ← idlePercent population t.laborers.values
  inRange (productivities t)
  pure (.report t real idle)

/-! ### Phases -/

/-- The labors whose productivity is still derived when there is a number of laborers out of range;
a labor with inputs needs its laborers before that. -/
def derivedBefore? (t : Town) : Option (List Labor) :=
  let before := Labor.all.takeWhile fun l => (t.laborersOf l).fits
  match Labor.all.drop before.length with
  | [] => none
  | l :: _ =>
    some (if (l.recipe : Recipe Quantity).inputs.isEmpty then before ++ [l] else before)

/-- Derive supply and demand. -/
def supplied (s : Session) : Session × Answer Unit :=
  match derivedBefore? s.town with
  | some labors =>
    ({ s with town := s.town.deriveProductivity labors }, .error (.conversion .tooLarge))
  | none =>
    -- the demand for food depends on the population
    match s.population.mul (.real 0.5) with
    | .error e => ({ s with town := s.town.deriveProductivity Labor.all }, .error (.operand e))
    | .ok _ => ({ s with town := s.town.deriveAvailable }, .ok ())

/-- The numbers from which labor values are derived. -/
def valueNumbers (t : Town) : List Quantity :=
  let inputs := Labor.all.flatMap fun l => (l.recipe : Recipe Quantity).inputs
  inputs.map (fun p => t.laborValue.valueD p.1 0.0) ++ t.laborers.values ++ productivities t

/-- Derive labor values. -/
def valued (s : Session) : Session × Answer Unit :=
  match inRange (valueNumbers s.town) with
  | .error e => (s, .error e)
  | .ok () => ({ s with town := s.town.deriveLaborValues }, .ok ())

/-- The numbers by which the coefficients of the labor system are divided. -/
def systemNumbers (t : Town) : List Quantity :=
  Labor.all.map t.guardedProductivity ++ Good.all.map t.guardedDemand

variable [LinearSolver Float32]

/-- Move laborers. Only then is the population compared with their number. -/
def redistributed (s : Session) : Session × Answer (List (Outcome Quantity Float32)) :=
  match inRange (systemNumbers s.town) with
  | .error e => (s, .error e)
  | .ok () =>
    match s.unnumbered with
    | none =>
      let (town, result) := s.town.redistribute
      ({ s with town }, result.mapError .market)
    | some l =>
      match s.town.solveSystem (Market.planned s.town.plan) with
      | .error e => (s, .error (.market e))
      | .ok (x, _) => ({ s with town := s.town.allocate x }, .error (.unordered "float" l.kind))

/-- One tick, and the town as it is reported if it succeeds. -/
def ticked (s : Session) : Session × Answer Town :=
  match supplied s with
  | (s₁, .error e) => (s₁, .error e)
  | (s₁, .ok ()) =>
    match valued s₁ with
    | (s₂, .error e) => (s₂, .error e)
    | (_, .ok ()) =>
      let (town, result) := s.town.tick
      ({ s with town }, result.mapError .market)

/-! ### Assignments -/

/-- Whether a literal counts as nothing: no value at all, zero or empty. -/
def isVoid : Literal → Bool
  | .null => true
  | .number q => q == 0
  | .text s => s.isEmpty
  | .list ls => ls.isEmpty
  | .table fields => fields.isEmpty

/-- The good that limits a productivity, if any. -/
def limitingGood (l : Literal) : Answer (Option Good) :=
  if isVoid l then .ok none else some <$> goodNamed l

/-- A row of the table of productivities. -/
def productivityRow (row : String × Literal × Literal) :
    Answer (Labor × Quantity × Option Good) := do
  let l ← laborNamed (.text row.1)
  let q ← quantity row.2.1
  pure (l, q, ← limitingGood row.2.2)

/-- Answer with the state after a phase. -/
def answered (result : Session × Answer Unit) : Session × Answer EventAnswer :=
  (result.1, result.2 >>= fun _ => stateOf result.1)

/-- Assign to a field of a town. -/
def assigned {τ : Type} (s : Session) (value : Answer τ) (set : τ → Town) :
    Session × Answer EventAnswer :=
  match value with
  | .ok v => answered ({ s with town := set v }, .ok ())
  | .error e => (s, .error e)

/-! ### Events -/

/-- Let an event happen: the session after it, and the answer. -/
def happen (s : Session) : Event → Session × Answer EventAnswer
  | .state => (s, stateOf s)
  | .deriveAvailable => answered (supplied s)
  | .deriveLaborValues => answered (valued s)
  | .system =>
    (s, do
      inRange (systemNumbers s.town)
      pure (.system (← s.town.system.mapError .market)))
  | .redistribute =>
    let (s, result) := redistributed s
    (s, result.map (.steps s.town))
  | .tick =>
    let population := s.population
    let (s, result) := ticked s
    (s, result >>= fun t => reportOf t population)
  | .snapshot => (s, reportOf s.town s.population)
  | .setPopulation l => answered (s.setPopulation l, .ok ())
  | .setLaborers table =>
    assigned s (keyedNumbers laborNamed table) fun laborers => { s.town with laborers }
  | .setAvailable table =>
    assigned s (keyedNumbers goodNamed table) fun available => { s.town with available }
  | .setLaborValue table =>
    assigned s (keyedNumbers goodNamed table) fun laborValue => { s.town with laborValue }
  | .setDemand table =>
    assigned s (keyedNumbers goodNamed table) fun demand => { s.town with demand }
  | .setProductivity rows =>
    assigned s (Table.ofList <$> rows.mapM productivityRow) fun productivity =>
      { s.town with productivity }

/-- Let events happen one after the other. -/
def events : Session → List Event → List (Answer EventAnswer)
  | _, [] => []
  | s, e :: es =>
    let (s, answer) := happen s e
    answer :: events s es

end Workforce.Request
