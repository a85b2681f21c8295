import Workforce.Decimal.Rounding

/-!
# The shortest decimal that reads back

The decimals that read back as a binary64 number `m · 2 ^ e` form an interval around it, ends
included exactly when `m` is even. Among the decimals in that interval those with the fewest
digits are wanted, and of these the nearest. On each grid it is enough to look at the two
neighbours of the number: if the interval holds a point of the grid, it holds one of them.
-/

namespace Workforce.Decimal

/-- A positive decimal `digits · 10 ^ exponent`. -/
structure Scientific where
  digits : Nat
  exponent : Int
deriving DecidableEq, Repr

namespace Scientific

/-- The exponent of the leading digit. -/
def leading (d : Scientific) : Int := d.exponent + digitCount d.digits - 1

/-- Drop zeros at the end of the digits, at most `fuel` of them. -/
def dropZeros : (fuel : Nat) → Scientific → Scientific
  | 0, d => d
  | fuel + 1, d =>
    if d.digits % 10 = 0 then dropZeros fuel ⟨d.digits / 10, d.exponent + 1⟩ else d

/-- Drop all zeros at the end of the digits. -/
def trim (d : Scientific) : Scientific := d.dropZeros (digitCount d.digits)

end Scientific

/-- The significand of a power of two, whose lower neighbour is twice as close. -/
def isLowest (m : Nat) (e : Int) : Bool := m == 0x10000000000000 && decide (-1074 < e)

/-- The best decimal on the grid `10 ^ t` that reads back as `m · 2 ^ e`. -/
def hit? (m : Nat) (e t : Int) : Option Nat :=
  -- quarters of a unit in the last place, so that both ends are whole
  let low := 4 * m - (if isLowest m e then 1 else 2)
  let high := 4 * m + 2
  let (num, den) := gridFraction 1 (e - 2) t
  let inside (c : Nat) : Bool :=
    if m % 2 = 0 then decide (low * num ≤ c * den ∧ c * den ≤ high * num)
    else decide (low * num < c * den ∧ c * den < high * num)
  let c := 4 * m * num / den
  let below := 4 * m * num - c * den
  let above := (c + 1) * den - 4 * m * num
  match inside c, inside (c + 1) with
  | true, true =>
    some (if below < above then c else if above < below then c + 1
      else if c % 2 = 0 then c else c + 1)
  | true, false => some c
  | false, true => some (c + 1)
  | false, false => none

/-- The first hit on the grids of `k`, `k + 1`, … digits. -/
def firstHit (m : Nat) (e : Int) (leading : Int) : (fuel k : Nat) → Scientific
  | 0, k => ⟨onGrid m e (leading - k + 1), leading - k + 1⟩
  | fuel + 1, k =>
    match hit? m e (leading - k + 1) with
    | some c => ⟨c, leading - k + 1⟩
    | none => firstHit m e leading fuel (k + 1)

/-- The shortest decimal that reads back as `m · 2 ^ e`. Seventeen digits always do. -/
def shortest (m : Nat) (e : Int) : Scientific :=
  (firstHit m e (leadingExponent m e) 16 1).trim

/-- `m · 2 ^ e` rounded to `k` significant digits. -/
def significant (m : Nat) (e : Int) (k : Nat) : Scientific :=
  let t := leadingExponent m e - k + 1
  ⟨onGrid m e t, t⟩

end Workforce.Decimal
