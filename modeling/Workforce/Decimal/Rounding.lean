/-!
# Rounding to a decimal grid

The grid of exponent `t` holds the multiples of `10 ^ t`. A value `m · 2 ^ e` is compared with the
grid exactly, as a quotient of natural numbers, so every rounding below is to nearest with ties
to even, on the exact value.
-/

namespace Workforce.Decimal

/-- The quotient of two numbers rounded to the nearest natural number, ties to even. -/
def roundDiv (num den : Nat) : Nat :=
  let q := num / den
  let twice := 2 * (num % den)
  if twice < den then q else if den < twice then q + 1 else if q % 2 = 0 then q else q + 1

/-- `b ^ k` split into a numerator and a denominator. -/
def powFraction (b : Nat) (k : Int) : Nat × Nat :=
  if 0 ≤ k then (Nat.pow b k.toNat, 1) else (1, Nat.pow b (-k).toNat)

/-- `m · 2 ^ e / 10 ^ t` as a fraction. -/
def gridFraction (m : Nat) (e t : Int) : Nat × Nat :=
  let (n₂, d₂) := powFraction 2 e
  let (n₁₀, d₁₀) := powFraction 10 t
  (m * n₂ * d₁₀, d₂ * n₁₀)

/-- `m · 2 ^ e` in units of `10 ^ t`, rounded to the nearest, ties to even. -/
def onGrid (m : Nat) (e t : Int) : Nat :=
  let (num, den) := gridFraction m e t
  roundDiv num den

/-- How many decimal digits a number has; none for zero. -/
def digitCount (n : Nat) : Nat := if n = 0 then 0 else (Nat.toDigits 10 n).length

/-- The exponent of the leading decimal digit of `m · 2 ^ e`, for `m` not zero. -/
def leadingExponent (m : Nat) (e : Int) : Int :=
  let (n, d) := powFraction 2 e
  if d ≤ m * n then digitCount (m * n / d) - 1
  else
    -- the least `k` with `d ≤ m · 10 ^ k` is within one of the difference in length
    let k := digitCount d - digitCount (m * n)
    if d ≤ m * n * Nat.pow 10 k then -k else -k - 1

end Workforce.Decimal
