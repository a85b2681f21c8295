import Workforce.Descent.Basic
import Workforce.Literal.Basic

/-!
# Parameters of a descent

The parameters of a descent are given as literals and checked: the damping is not negative, the
scales shrink by a factor between `0` and `1`, and they start above a positive floor.
-/

namespace Workforce

/-- Why parameters are refused. -/
inductive ParameterError where
  /-- A parameter is no number and does not compare with one. -/
  | notOrdered (left right : String)
  | negativeDamping (damping : Quantity)
  | shrinkOutOfRange (shrink : Quantity)
  | floorOutOfRange (floor : Quantity) (start : Literal)
  | negativeDepth (depth : Quantity)
  | negativeSteps (steps : Quantity)
  /-- A number of steps that is no integer. -/
  | notAnInteger (kind : String)

namespace ParameterError

def message : ParameterError → String
  | notOrdered left right => s!"'<' not supported between instances of '{left}' and '{right}'"
  | negativeDamping damping => s!"damping beta must be non-negative, got {damping.text}."
  | shrinkOutOfRange shrink => s!"shrink must be in (0, 1), got {shrink.text}."
  | floorOutOfRange floor start =>
    s!"alpha_floor ({floor.text}) must be positive and below initial_alpha ({start.plain})."
  | negativeDepth depth => s!"depth must be non-negative, got {depth.text}."
  | negativeSteps steps => s!"steps must be non-negative, got {steps.text}."
  | notAnInteger kind => s!"'{kind}' object cannot be interpreted as an integer"

end ParameterError

/-- The number that a literal is, which is about to be compared with a bound on its right. -/
def Literal.quantityBelow (bound : String) : Literal → Except ParameterError Quantity
  | .number q => .ok q
  | l => .error (.notOrdered l.kind bound)

/-- The number that a literal is, which is about to be compared with a bound on its left. -/
def Literal.quantityAbove (bound : String) : Literal → Except ParameterError Quantity
  | .number q => .ok q
  | l => .error (.notOrdered bound l.kind)

/-- A damping that is not negative. -/
def checkDamping (l : Literal) : Except ParameterError {q : Quantity // ¬ q < 0} := do
  let q ← l.quantityBelow "int"
  if h : q < 0 then .error (.negativeDamping q) else pure ⟨q, h⟩

/-- How many levels of feedback a depth allows: as many as there are whole numbers from zero that
are below it. A depth without end allows one level for each row, which is enough for every flow
that ends. -/
def levelsOf (rows : Nat) (depth : Quantity) : Except ParameterError Nat :=
  if depth < 0 then .error (.negativeDepth depth)
  else
    match depth with
    | .flag b => .ok b.toNat
    | .whole n => .ok n.toNat
    | .real x =>
      match Parts.of x with
      | .finite _ m e =>
        let (num, den) := Decimal.powFraction 2 e
        .ok ((m * num + den - 1) / den)
      | .infinite _ => .ok rows
      | .undefined => .ok 0

/-- The levels that a literal depth allows. -/
def Literal.levels (rows : Nat) (l : Literal) : Except ParameterError Nat := do
  levelsOf rows (← l.quantityBelow "int")

/-- A number of steps that can be taken. -/
def Literal.steps (l : Literal) : Except ParameterError Nat := do
  let q ← l.quantityBelow "int"
  if q < 0 then .error (.negativeSteps q)
  else
    match q.toInt? with
    | some n => pure n.toNat
    | none => .error (.notAnInteger l.kind)

/-- The parameters of a descent, each a literal. -/
structure Parameters where
  damping : Literal
  start : Literal
  shrink : Literal
  floor : Literal

/-- The descent with the given parameters, if they are valid. -/
def Parameters.descent (p : Parameters) : Except ParameterError (Descent Quantity) := do
  let ⟨damping, not_damping_neg⟩ ← checkDamping p.damping
  let shrink ← p.shrink.quantityAbove "float"
  if hs : 0 < shrink ∧ shrink < 1 then
    let floor ← p.floor.quantityAbove "float"
    if hf : 0 < floor then
      let start ← p.start.quantityAbove (Literal.number floor).kind
      if h : floor < start then
        pure ⟨damping, start, shrink, floor, not_damping_neg, hs.1, hs.2, hf, h⟩
      else .error (.floorOutOfRange floor p.start)
    else .error (.floorOutOfRange floor p.start)
  else .error (.shrinkOutOfRange shrink)

end Workforce
