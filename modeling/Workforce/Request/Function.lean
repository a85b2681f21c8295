import Workforce.Literal.Conversion
import Workforce.Number.Order
import Workforce.Workspace.Command

/-!
# Functions by name

Functions that vectors are combined with, and functions that matrices are generated from, as far as
a request can name them.
-/

namespace Workforce

/-- Functions of two entries that have a name. -/
inductive ZipFunction where
  | mul
  | sub
  | div
  | max
  | second
deriving DecidableEq, Repr

/-- The value of a function of two entries, in binary64. -/
def ZipFunction.apply : ZipFunction → Float → Float → Except CommandError Float
  | mul, a, b => .ok (a * b)
  | sub, a, b => .ok (a - b)
  | div, a, b => if b == 0 then .error .divisionByZero else .ok (a / b)
  | max, a, b => .ok (larger a b)
  | second, _, b => .ok b

/-- The function that sends row `r` and column `c` to `(a * r + b * c) + k`. -/
structure AffineFunction where
  a : Literal
  b : Literal
  k : Literal

namespace AffineFunction

/-- The value at row `r` and column `c`. -/
def apply (f : AffineFunction) (r c : Nat) : Except OperandError Literal := do
  ((← f.a.mul (.whole r)).add (← f.b.mul (.whole c))).bind fun s => s.add f.k

/-- The function as it is called for entries. It takes no notice of earlier calls. -/
def callback (f : AffineFunction) : Grid.Callback CommandError := fun _ r c =>
  match f.apply r c with
  | .error e => .error (.operand e)
  | .ok l => l.toElement.mapError .conversion

end AffineFunction

end Workforce
