import Workforce.Market.Tick
import Workforce.Request.Descent

/-!
# Founding markets

A market is founded from settings, which complete and check what is given, or directly from its
fields. Its population is taken as it is given, and only has to be a number when it is used.
-/

namespace Workforce.Request

open Answer

/-- The market that requests are about. -/
abbrev Town : Type := Market Quantity Float32

/-- A town, and what its population was set to if that is no number. -/
structure Session where
  town : Town
  unnumbered : Option Literal := none

namespace Session

/-- The population as it was set. -/
def population (s : Session) : Literal := s.unnumbered.getD (.number s.town.population)

/-- Set the population. -/
def setPopulation (s : Session) : Literal → Session
  | .number population => ⟨{ s.town with population }, none⟩
  | l => ⟨s.town, some l⟩

end Session

/-- A table as it is given: names and values. -/
abbrev GivenTable : Type := List (String × Literal)

/-- What is given to found a market. -/
structure Founding where
  /-- Whether the fields are taken as they are. -/
  direct : Bool
  population : Option Literal
  laborers : Option GivenTable
  descent : Option GivenParameters
  settings : Option GivenTable
  target : Option Literal
  minAllocation : Option Literal
  stepsPerTick : Option Literal
  jacobianScale : Option Literal

/-- The member that a literal names. -/
def memberNamed {κ : Type} (kind : String) (ofText? : String → Option κ) (l : Literal) : Answer κ :=
  let found := match l with
    | .text name => ofText? name
    | _ => none
  match found with
  | some k => .ok k
  | none => .error (.unknownName l kind)

/-- The labor that a literal names. -/
def laborNamed : Literal → Answer Labor := memberNamed "Labor" Labor.ofText?

/-- The good that a literal names. -/
def goodNamed : Literal → Answer Good := memberNamed "Good" Good.ofText?

/-- The number that a literal is. -/
def quantity : Literal → Answer Quantity
  | .number q => .ok q
  | l => .error (.conversion (.notNumber l.kind))

/-- A table with keys in place of names; the last value of a key counts. -/
def keyed {κ : Type} [DecidableEq κ] (key : Literal → Answer κ) (t : GivenTable) :
    Answer (Table κ Literal) := do
  pure (Table.ofList (← t.mapM fun (name, l) => return (← key (.text name), l)))

/-- A table of numbers. -/
def numbers {κ : Type} (t : Table κ Literal) : Answer (Table κ Quantity) :=
  t.mapM fun (k, l) => return (k, ← quantity l)

/-- A table of numbers with keys in place of names. -/
def keyedNumbers {κ : Type} [DecidableEq κ] (key : Literal → Answer κ) (t : GivenTable) :
    Answer (Table κ Quantity) := do
  numbers (← keyed key t)

/-- Literals that have to be real numbers, for every labor in order. -/
def realLaborers (t : Table Labor Literal) : Answer (Table Labor Quantity) := do
  let missing := Labor.all.filter fun l => (t.value? l).isNone
  if missing ≠ [] then .error (.missingLaborers missing)
  else
    Labor.all.mapM fun l => do
      let x ← ((t.valueD l .null).toNumber).mapError .conversion
      pure (l, .real x)

/-- One laborer for every labor. -/
def oneEach : Table Labor Literal := Labor.all.map fun l => (l, .real 1.0)

/-- A town founded from settings. -/
def foundFromSettings (env : Environment) (settings : Settings) (population : Option Literal)
    (laborers : Option (Table Labor Literal)) (given : Option (Descent Quantity)) :
    Answer Session := do
  let laborers ← realLaborers (laborers.getD oneEach)
  let descent ← match given with
    | some s => pure s
    -- the line search is that of the environment, and only the damping that of the settings
    | none => descent env { damping := some (.real settings.damping) }
  let plan :=
    { target := .real settings.target
      minAllocation := .real settings.minAllocation
      steps := .whole settings.stepsPerTick
      jacobianScale := .real settings.jacobianScale
      descent }
  let town : Town := { plan, population := .real settings.population, laborers }
  pure ((Session.mk town none).setPopulation (orSetting population settings.population))

/-- The number that a field is given, or its default. -/
def fieldOr (given : Option Literal) (default : Quantity) : Answer Quantity :=
  match given with
  | some (.number q) =>
    if q.fits then .ok q else .error (.conversion .tooLarge)
  | some l => (l.toNumber.map Quantity.real).mapError .conversion
  | none => .ok default

/-- A town founded directly from its fields. -/
def foundDirectly (env : Environment) (f : Founding) (laborers : Option (Table Labor Literal))
    (given : Option (Descent Quantity)) : Answer Session := do
  match f.population, laborers with
  | some population, some laborers =>
    let descent ← match given with
      | some s => pure s
      | none => descent env {}
    let plan :=
      { target := ← fieldOr f.target (.real 1.01)
        minAllocation := ← fieldOr f.minAllocation (.real 0.01)
        steps := f.stepsPerTick.getD (.whole 1)
        jacobianScale := ← fieldOr f.jacobianScale (.real sqrtTwo)
        descent }
    let town : Town := { plan, population := 0, laborers := ← numbers laborers }
    pure ((Session.mk town none).setPopulation population)
  | population, laborers =>
    .error (.missingFields ((if population.isNone then ["pop"] else []) ++
      (if laborers.isNone then ["laborers"] else [])))

/-- Found a market: settings first, then the names of laborers, the descent and the rest. -/
def found (env : Environment) (f : Founding) : Answer Session := do
  let settings ← match f.settings with
    | some explicit => some <$> (Settings.load explicit env).mapError RequestError.settings
    | none => pure none
  let laborers ← match f.laborers with
    | some t => some <$> keyed laborNamed t
    | none => pure none
  let given ← match f.descent with
    | some p => some <$> descent env p
    | none => pure none
  if f.direct then foundDirectly env f laborers given
  else
    let settings ← match settings with
      | some s => pure s
      | none => ambient env
    foundFromSettings env settings f.population laborers given

end Workforce.Request
