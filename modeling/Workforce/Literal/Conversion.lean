import Workforce.Decimal.Reader
import Workforce.Literal.Basic

/-!
# Literals as numbers

An atom is converted to a binary64 number: an integer is rounded, nothing at all is undefined, a
text is read. What cannot be converted fails for one of four reasons.
-/

namespace Workforce

/-- Why a literal is not a number. -/
inductive ConversionError where
  | tooLarge
  | unreadable (s : String)
  | sequence
  | notNumber (kind : String)
deriving DecidableEq, Repr

namespace ConversionError

def message : ConversionError → String
  | tooLarge => "int too large to convert to float"
  | unreadable s => "could not convert string to float: " ++ Text.quoted s
  | sequence => "setting an array element with a sequence."
  | notNumber kind => "float() argument must be a string or a real number, not '" ++ kind ++ "'"

end ConversionError

/-- A quantity in the range of binary64 numbers, rounded to one. -/
def Quantity.toFloat? (q : Quantity) : Except ConversionError Float :=
  if q.fits then .ok q.toFloat else .error .tooLarge

/-- The binary64 number that an array element stands for. -/
def Literal.toElement : Literal → Except ConversionError Float
  | .null => .ok (0 / 0)
  | .number q => q.toFloat?
  | .text s =>
    match Decimal.readFloat? s with
    | some x => .ok x
    | none => .error (.unreadable s)
  | .list _ => .error .sequence
  | .table _ => .error (.notNumber "dict")

/-- The binary64 number that a literal stands for on its own. -/
def Literal.toNumber : Literal → Except ConversionError Float
  | .null => .error (.notNumber "NoneType")
  | .list _ => .error (.notNumber "list")
  | l => l.toElement

end Workforce
