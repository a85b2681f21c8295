import Workforce.Settings.Assignments
import Workforce.Settings.Conversion

/-!
# Loading settings

Each setting is taken from the first source that gives it: explicit values, the environment, the
file of assignments, the defaults. All names are compared without regard to case. Every setting is
checked on its own, and the floor of the line search is compared with its start when all are
valid.
-/

namespace Workforce

/-- Where settings come from besides explicit values. -/
structure Environment where
  bindings : List (String × String)
  file : String

namespace Environment

/-- No variables and no file. -/
def empty : Environment := ⟨[], ""⟩

end Environment

/-- A setting that is refused, by name, and why. The name is empty when two settings do not go
together. -/
structure FieldError where
  name : String
  reason : ValueError
deriving DecidableEq, Repr

namespace Settings

/-- A character without its case. The sign of the unit kelvin is a capital letter too. -/
def withoutCase (c : Char) : Char := if c.toNat = 0x212a then 'k' else c.toLower

/-- Whether two names agree without regard to case. -/
def sameName (s t : String) : Bool := s.toList.map withoutCase == t.toList.map withoutCase

/-- The first of the values that a source has under a name, in whatever case. -/
def first? {τ : Type} (source : List (String × τ)) (name : String) : Option τ :=
  (source.find? fun p => sameName p.1 name).map Prod.snd

/-- The last of the values that a source has under a name, in whatever case. -/
def last? {τ : Type} (source : List (String × τ)) (name : String) : Option τ :=
  first? source.reverse name

/-- The explicit value with a name: under its exact spelling, or the first in another case. -/
def explicit? (explicit : List (String × Literal)) (name : String) : Option Literal :=
  ((explicit.find? fun p => p.1 == name).map Prod.snd).or (first? explicit name)

/-- The value given for a setting. -/
def given? (explicit : List (String × Literal)) (env : Environment) (name : String) :
    Option Literal :=
  explicit? explicit name
    <|> (last? env.bindings name).map .text
    <|> (last? (Assignments.read env.bindings env.file) name).join.map .text

/-- A setting: its value or default, and the errors so far with its own added. -/
def field {τ : Type} (given : String → Option Literal) (name : String)
    (convert : Literal → Except ValueError τ) (fallback : τ) : StateM (List FieldError) τ :=
  match given name with
  | none => pure fallback
  | some l =>
    match convert l with
    | .ok x => pure x
    | .error e => do
      modify (· ++ [⟨name, e⟩])
      pure fallback

/-- A real setting within bounds. -/
def realField (given : String → Option Literal) (name : String) (bounds : List Bound)
    (fallback : Float) : StateM (List FieldError) Float :=
  field given name (fun l => toReal l >>= bounded .real bounds) fallback

/-- An integer setting within bounds. -/
def integerField (given : String → Option Literal) (name : String) (bounds : List Bound)
    (fallback : Int) : StateM (List FieldError) Int :=
  field given name (fun l => toInteger l >>= bounded .whole bounds) fallback

/-- All settings, each checked on its own. -/
def fields (given : String → Option Literal) : StateM (List FieldError) Settings := do
  let damping ← realField given "DAMPING_BETA" [.atLeast 0] default.damping
  let jacobianScale ← realField given "JACOBIAN_SCALE" [.above 0] default.jacobianScale
  let start ← realField given "LINE_SEARCH_INITIAL_ALPHA" [.above 0] default.start
  let shrink ← realField given "LINE_SEARCH_SHRINK" [.below 1, .above 0] default.shrink
  let floor ← realField given "LINE_SEARCH_ALPHA_FLOOR" [.above 0] default.floor
  let depth ← integerField given "APPROX_INVERSE_DEPTH" [.atLeast 0] default.depth
  let population ← realField given "POPULATION" [.above 0] default.population
  let target ← realField given "OVERPRODUCTION_TARGET" [.above 0] default.target
  let minAllocation ← realField given "MIN_WORKFORCE_ALLOC" [.atLeast 0] default.minAllocation
  let stepsPerTick ← integerField given "SOLVER_STEPS_PER_TICK" [.atLeast 1] default.stepsPerTick
  let logLevel ← field given "LOG_LEVEL" toLevel default.logLevel
  pure
    { damping, jacobianScale, start, shrink, floor, depth, population, target, minAllocation,
      stepsPerTick, logLevel }

/-- The settings from explicit values and an environment. -/
def load (explicit : List (String × Literal)) (env : Environment) :
    Except (List FieldError) Settings :=
  let (settings, errors) := (fields (given? explicit env)).run []
  if errors ≠ [] then .error errors
  else if settings.start ≤ settings.floor then .error [⟨"", .floorNotBelowStart⟩]
  else .ok settings

/-- The names and values of all settings, in the order of their declaration. -/
def toList (s : Settings) : List (String × Literal) :=
  [("DAMPING_BETA", .real s.damping), ("JACOBIAN_SCALE", .real s.jacobianScale),
    ("LINE_SEARCH_INITIAL_ALPHA", .real s.start), ("LINE_SEARCH_SHRINK", .real s.shrink),
    ("LINE_SEARCH_ALPHA_FLOOR", .real s.floor), ("APPROX_INVERSE_DEPTH", .whole s.depth),
    ("POPULATION", .real s.population), ("OVERPRODUCTION_TARGET", .real s.target),
    ("MIN_WORKFORCE_ALLOC", .real s.minAllocation),
    ("SOLVER_STEPS_PER_TICK", .whole s.stepsPerTick), ("LOG_LEVEL", .text s.logLevel.text)]

end Settings

end Workforce
