import Workforce.Number.Quantity

/-!
# Settings

The settings of a run: damping and line search, the depth of the flow inverse, the simulated
market and the level of the log. `Settings.default` holds the values used where none are given.
-/

namespace Workforce

/-- How much a log shows. -/
inductive LogLevel where
  | debug
  | info
  | warning
  | error
  | critical
deriving DecidableEq, Repr

namespace LogLevel

def all : List LogLevel := [debug, info, warning, error, critical]

def text : LogLevel → String
  | debug => "DEBUG"
  | info => "INFO"
  | warning => "WARNING"
  | error => "ERROR"
  | critical => "CRITICAL"

/-- The level with a name. -/
def ofText? (s : String) : Option LogLevel := all.find? fun l => l.text == s

theorem ofText?_text (l : LogLevel) : ofText? l.text = some l := by cases l <;> decide

end LogLevel

/-- The settings of a run. -/
structure Settings where
  damping : Float
  jacobianScale : Float
  start : Float
  shrink : Float
  floor : Float
  depth : Int
  population : Float
  target : Float
  minAllocation : Float
  stepsPerTick : Int
  logLevel : LogLevel

/-- The square root of two, the scale at which a Jacobian is the derivative of a halved square. -/
def sqrtTwo : Float := Float.sqrt 2

namespace Settings

/-- The settings used where none are given. -/
def default : Settings where
  damping := 0.001
  jacobianScale := sqrtTwo
  start := 1.0
  shrink := 0.5
  floor := 0.001
  depth := 5
  population := 100.0
  target := 1.01
  minAllocation := 0.01
  stepsPerTick := 1
  logLevel := .info

end Settings

end Workforce
