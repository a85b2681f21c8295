import Workforce.Number.Precision

/-!
# Single precision entries

Matrix entries are binary32 numbers and everything around them is binary64. `narrow` rounds to
the nearest entry, ties to even, with gradual underflow and overflow to infinity; `widen` is
exact. Both work on the exact value `± m · 2 ^ e` of a number and so can be reasoned about.
-/

namespace Workforce

open Float.Model

instance Single.instZero : Zero Float32 := ⟨0⟩

instance Single.instOne : One Float32 := ⟨1⟩

/-- Round a binary64 number to binary32, to nearest with ties to even. -/
def narrow (x : Float) : Float32 :=
  Float32.ofBits ⟨UnpackedFloat.pack Format.binary32 <|
    match UnpackedFloat.unpack Format.binary64 x.toBits.toBitVec with
    | .finite s m e _ => UnpackedFloat.round Format.binary32 s m e
    | special => special⟩

/-- Read a binary32 number as the binary64 number of the same value. -/
def widen (x : Float32) : Float :=
  Float.ofBits ⟨UnpackedFloat.pack Format.binary64 <|
    match UnpackedFloat.unpack Format.binary32 x.toBits.toBitVec with
    | .finite s m e _ => UnpackedFloat.round Format.binary64 s m e
    | special => special⟩

namespace Single

/-- `2 ^ k` in single precision: infinite above the range, subnormal and then zero below. -/
def pow2 (k : Int) : Float32 :=
  Float32.ofBits ⟨UnpackedFloat.pack Format.binary32 <|
    UnpackedFloat.round Format.binary32 .positive 1 k⟩

/-- How many units in the last place below `2 ^ e` a number may lie and still have a logarithm
that rounds to `e`: that is `ln 2` times the distance between `e` and half way to its lower
neighbour. The fraction `177 / 256` stands for `ln 2`. -/
def logarithmSlack (e : Int) : Nat :=
  if e = 0 then 0
  else
    let k := e.natAbs.log2
    -- below a power of two, the neighbours are twice as close
    let k := if 0 < e ∧ e.natAbs = Nat.pow 2 k then k - 1 else k
    if e = 1 then 0 else 177 * Nat.pow 2 k / 256

/-- The floor of the rounded binary logarithm of `m · 2 ^ e`. A number just below a power of two
has a logarithm that rounds up to it. -/
def floorLog2 (m : Nat) (e : Int) : Int :=
  let width := m.log2 + 1
  let top := e + width
  -- the distance to `2 ^ top`, counted in units of a 24 bit significand
  let gap := (Nat.pow 2 width - m) * Nat.pow 2 (24 - width)
  if width ≤ 24 ∧ gap ≤ logarithmSlack top then top else top - 1

/-- The power of two that brings the leading digit of a positive number to the units. An infinite
number gives `0`, one below `2 ^ (-127)` an infinite factor, an undefined one itself. -/
def normalizer (x : Float32) : Float32 :=
  match UnpackedFloat.unpack Format.binary32 x.toBits.toBitVec with
  | .finite _ m e _ => pow2 (-floorLog2 m e)
  | .zero _ => 1 / 0
  | .infinity _ => 0
  | .notANumber => 0 / 0

end Single

instance : Precision Float32 where
  isFinite x := x.isFinite
  normalizer := Single.normalizer
  epsilon := Single.pow2 (-23)
  -- the value that balances the growth of entries over pivots of one and of two rows
  pivotThreshold := (1 + Float32.sqrt 17) / 8

end Workforce
