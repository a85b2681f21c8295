import Workforce.Descent.Parameters
import Workforce.Grid.Build
import Workforce.Literal.Arithmetic
import Workforce.Market.Basic
import Workforce.Settings.Load

/-!
# Errors of requests

A request is answered from literals, so it can fail while its matrices are built, its parameters
checked or its settings loaded, and then in the computation itself.
-/

namespace Workforce

/-- Why a request fails. -/
inductive RequestError where
  | build (e : BuildError)
  | conversion (e : ConversionError)
  | operand (e : OperandError)
  | parameter (e : ParameterError)
  | solve (e : SolveError)
  | market (e : MarketError)
  | settings (errors : List FieldError)
  /-- A name that is no labor or good. -/
  | unknownName (name : Literal) (kind : String)
  /-- A number that is compared with something else. -/
  | unordered (left right : String)
  /-- Labors without a number of laborers. -/
  | missingLaborers (labors : List Labor)
  /-- Fields that a market cannot do without. -/
  | missingFields (names : List String)

namespace RequestError

/-- Names of fields in a sentence. -/
def joinNames (names : List String) : String := " and ".intercalate (names.map Text.quoted)

/-- The text of an error, except for settings, where every field has its own. -/
def message : RequestError → String
  | build e => e.message
  | conversion e => e.message
  | operand e => e.message
  | parameter e => e.message
  | solve e => e.message
  | market e => e.message
  | settings errors => ", ".intercalate (errors.map fun e => e.reason.message)
  | unknownName name kind => s!"{name.shown} is not a valid {kind}"
  | unordered left right => s!"'>' not supported between instances of '{left}' and '{right}'"
  | missingLaborers labors =>
    let names := ", ".intercalate (labors.map Labor.text)
    s!"laborers missing for: {names}."
  | missingFields names =>
    let plural := if names.length = 1 then "argument" else "arguments"
    s!"Economy.__init__() missing {names.length} required positional {plural}: {joinNames names}"

end RequestError

/-- The answer to a request. -/
abbrev Answer (τ : Type) : Type := Except RequestError τ

namespace Answer

def ofBuild {τ : Type} (x : Except BuildError τ) : Answer τ := x.mapError .build

def ofShape {τ : Type} (x : Except ShapeError τ) : Answer τ := x.mapError fun e => .solve (.shape e)

def ofInversion {τ : Type} (x : Except InversionError τ) : Answer τ :=
  x.mapError fun e => .solve (.inversion e)

def ofSolve {τ : Type} (x : Except SolveError τ) : Answer τ := x.mapError .solve

def ofParameter {τ : Type} (x : Except ParameterError τ) : Answer τ := x.mapError .parameter

end Answer

end Workforce
