import Workforce.Number.Parts
import Workforce.Number.Precision
import Workforce.Number.Single
import Workforce.Decimal.Layout

/-!
# Quantities

The scalars of a run are given as they were written: a truth value, an integer of any size or a
binary64 number. Integers stay exact among themselves and are rounded where they meet a real
number; a truth value counts as `0` or `1`. Comparisons are exact on mixed arguments too.
-/

namespace Workforce

/-- A scalar as it was written. -/
inductive Quantity where
  | flag (b : Bool)
  | whole (n : Int)
  | real (x : Float)
deriving DecidableEq

namespace Quantity

/-- The integer that an exact quantity stands for. -/
def toInt? : Quantity → Option Int
  | flag b => some b.toInt
  | whole n => some n
  | real _ => none

/-- Whether an integer is in the range of numbers that count places, from `-2 ^ 63` on and below
`2 ^ 63`. -/
def isPlace (n : Int) : Bool := -0x8000000000000000 ≤ n && n < 0x8000000000000000

/-- The nearest binary64 number. -/
def toFloat : Quantity → Float
  | flag b => if b then 1 else 0
  | whole n => Float.ofInt n
  | real x => x

/-- Whether a quantity is in the range of binary64 numbers: only an integer can fail. -/
def fits : Quantity → Bool
  | whole n => (Float.ofInt n).isFinite
  | _ => true

/-- The text of a quantity, as it stands in messages. -/
def text : Quantity → String
  | flag b => if b then "True" else "False"
  | whole n => toString n
  | real x => Decimal.shortText x

/-- Compute exactly on exact arguments, and in binary64 otherwise. -/
def lift₂ (exact : Int → Int → Int) (rounded : Float → Float → Float) (a b : Quantity) : Quantity :=
  match a.toInt?, b.toInt? with
  | some m, some n => whole (exact m n)
  | _, _ => real (rounded a.toFloat b.toFloat)

/-- The number with the other sign. -/
def neg : Quantity → Quantity
  | flag b => whole (-b.toInt)
  | whole n => whole (-n)
  | real x => real (-x)

/-- The order of two quantities; `none` when they do not compare. -/
def compare? (a b : Quantity) : Option Ordering :=
  match a, b with
  | real x, real y => if x < y then some .lt else if x == y then some .eq else
      if y < x then some .gt else none
  | a, b =>
    match a.toInt?, b.toInt? with
    | some m, some n => some (compare m n)
    | some m, none => (Parts.of b.toFloat).compareInt m
    | none, some n => ((Parts.of a.toFloat).compareInt n).map Ordering.swap
    | none, none => none

instance : Zero Quantity := ⟨whole 0⟩

instance : One Quantity := ⟨whole 1⟩

instance : Add Quantity := ⟨lift₂ (· + ·) (· + ·)⟩

instance : Sub Quantity := ⟨lift₂ (· - ·) (· - ·)⟩

instance : Mul Quantity := ⟨lift₂ (· * ·) (· * ·)⟩

instance : Div Quantity := ⟨fun a b => real (a.toFloat / b.toFloat)⟩

instance : LT Quantity := ⟨fun a b => compare? a b = some .lt⟩

instance : DecidableLT Quantity := fun a b =>
  inferInstanceAs (Decidable (compare? a b = some .lt))

instance : LE Quantity := ⟨fun a b => compare? a b = some .lt ∨ compare? a b = some .eq⟩

instance : DecidableLE Quantity := fun a b =>
  inferInstanceAs (Decidable (compare? a b = some .lt ∨ compare? a b = some .eq))

instance : BEq Quantity := ⟨fun a b => compare? a b == some .eq⟩

instance : OfScientific Quantity := ⟨fun m s e => real (OfScientific.ofScientific m s e)⟩

/-- A quantity meets a matrix as a binary32 number. -/
instance : Steering Quantity Float32 where
  toEntry a := if a.fits then some (narrow a.toFloat) else none
  ofEntry x := real (widen x)

@[simp] theorem lt_real (x y : Float) : real x < real y ↔ x < y := by
  simp only [LT.lt, compare?]
  split <;> rename_i h
  · simpa using h
  · split
    · simpa using h
    · split <;> simpa using h

end Quantity

end Workforce
