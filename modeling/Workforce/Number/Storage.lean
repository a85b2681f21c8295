import Workforce.Decimal.Layout

/-!
# Storage

Whatever is stored takes a number of bytes. There is room for a limited number of them, and numbers
beyond another limit cannot even be counted. A size is written in the largest binary unit that it
reaches, with three significant digits.
-/

namespace Workforce.Storage

/-- The number of bytes that there is room for. -/
def room : Nat := 0x200000000

/-- The largest number of bytes that can be counted. -/
def countable : Nat := 0x7fffffffffffffff

/-- The binary units, each of which is 1024 times the one before. -/
def units : List String := ["bytes", "KiB", "MiB", "GiB", "TiB", "PiB", "EiB"]

/-- The number of the unit in which a size is written, and what it stands for. A size that rounds to
1024 of a unit is written in the next one. -/
def unitOf (bytes : Nat) : Nat × Nat :=
  let k := Nat.log2 bytes / 10
  let unit := Nat.pow 1024 k
  if Decimal.roundDiv bytes unit = 1024 then (k + 1, 1024 * unit) else (k, unit)

/-- A number of bytes in a sentence. -/
def text (bytes : Nat) : String :=
  let (k, unit) := unitOf bytes
  let name := units.getD k "EiB"
  let whole := Decimal.roundDiv bytes unit
  let tenths := Decimal.roundDiv (10 * bytes) unit
  let hundredths := Decimal.roundDiv (100 * bytes) unit
  if k = 0 then s!"{whole} {name}"
  else if hundredths < 1000 then s!"{Decimal.pointText hundredths 2} {name}"
  else if tenths < 1000 then s!"{Decimal.pointText tenths 1} {name}"
  else s!"{whole}. {name}"

end Workforce.Storage
