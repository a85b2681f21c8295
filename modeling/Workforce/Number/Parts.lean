import Workforce.Decimal.Rounding

/-!
# The exact value of a binary64 number

`Parts.of x` is the sign, significand and exponent of a binary64 number, the form in which its
decimal text is computed and in which it is compared with integers of any size.
-/

namespace Workforce

open Float.Model

/-- The exact value of a binary64 number: `± mantissa · 2 ^ exponent`, unless it is not finite. -/
inductive Parts where
  | finite (negative : Bool) (mantissa : Nat) (exponent : Int)
  | infinite (negative : Bool)
  | undefined
deriving DecidableEq, Repr

namespace Parts

/-- Whether a sign is a minus. -/
def isMinus : UnpackedFloat.Sign → Bool
  | .negative => true
  | .positive => false

/-- The exact value of `x`. -/
def of (x : Float) : Parts :=
  match UnpackedFloat.unpack Format.binary64 x.toBits.toBitVec with
  | .finite s m e _ => .finite (isMinus s) m e
  | .zero s => .finite (isMinus s) 0 0
  | .infinity s => .infinite (isMinus s)
  | .notANumber => .undefined

/-- The order of an integer and an exact value; `none` when they do not compare. -/
def compareInt (n : Int) : Parts → Option Ordering
  | .finite negative m e =>
    let m : Int := if negative then -m else m
    let (num, den) := Decimal.powFraction 2 e
    some (compare (n * den) (m * num))
  | .infinite negative => some (if negative then .gt else .lt)
  | .undefined => none

end Parts

end Workforce
