import Workforce.Number.Parts
import Workforce.Decimal.Shortest

/-!
# Decimal text of a number

One layout writes every number with digits: positional for moderate exponents, and with an
exponent of at least two digits otherwise. `shortText` is the text of a number that stands for
itself; `generalText`, `fixedText` and `scientificText` are the texts of tables, with a given
number of digits.
-/

namespace Workforce.Decimal

/-- A text padded on the left with `c` to a width. -/
def padLeft (width : Nat) (c : Char) (s : String) : String :=
  String.ofList (List.replicate (width - s.length) c) ++ s

/-- A text padded on the right with blanks to a width. -/
def padRight (width : Nat) (s : String) : String :=
  s ++ String.ofList (List.replicate (width - s.length) ' ')

/-- The digits `n · 10 ^ (-places)` with `places` digits after the point. -/
def pointText (n places : Nat) : String :=
  if places = 0 then toString n
  else
    let ds := (padLeft (places + 1) '0' (toString n)).toList
    let k := ds.length - places
    String.ofList (ds.take k) ++ "." ++ String.ofList (ds.drop k)

/-- An exponent with its sign and at least two digits. -/
def exponentText (k : Int) : String :=
  "e" ++ (if k < 0 then "-" else "+") ++ padLeft 2 '0' (toString k.natAbs)

/-- How a decimal is laid out. -/
structure Layout where
  /-- Leading exponents in positional form are at least this one. -/
  positionalFrom : Int := -4
  /-- Leading exponents in positional form are below this one. -/
  positionalBelow : Int
  /-- Whether a whole number in positional form ends in a point and a zero. -/
  keepPoint : Bool

/-- A decimal in a layout. -/
def Scientific.text (l : Layout) (d : Scientific) : String :=
  let lead := d.leading
  if l.positionalFrom ≤ lead ∧ lead < l.positionalBelow then
    if 0 ≤ d.exponent then
      toString (d.digits * Nat.pow 10 d.exponent.toNat) ++ (if l.keepPoint then ".0" else "")
    else pointText d.digits (-d.exponent).toNat
  else pointText d.digits (digitCount d.digits - 1) ++ exponentText lead

/-- The text of a number from the text of its digits: signs, infinities and undefined values. -/
def signedText (x : Float) (digits : (m : Nat) → (e : Int) → String) : String :=
  match Parts.of x with
  | .finite negative m e => (if negative then "-" else "") ++ digits m e
  | .infinite negative => if negative then "-inf" else "inf"
  | .undefined => "nan"

/-- A number that stands for itself: positional below `10 ^ 16`, always with a point or an
exponent. -/
def Layout.short : Layout := { positionalBelow := 16, keepPoint := true }

/-- A number in a table: a whole number has no point. -/
def Layout.general (digits : Nat) : Layout := { positionalBelow := digits, keepPoint := false }

/-- The shortest text that reads back as `x`. -/
def shortText (x : Float) : String :=
  signedText x fun m e => if m = 0 then "0.0" else (shortest m e).text .short

/-- At most `digits` significant digits, without zeros at the end. -/
def generalText (digits : Nat) (x : Float) : String :=
  signedText x fun m e =>
    if m = 0 then "0" else (significant m e digits).trim.text (.general digits)

/-- Exactly `places` digits after the point. -/
def fixedText (places : Nat) (x : Float) : String :=
  signedText x fun m e => pointText (onGrid m e (-places)) places

/-- One digit before the point, `places` after it, and an exponent. -/
def scientificText (places : Nat) (x : Float) : String :=
  signedText x fun m e =>
    if m = 0 then pointText 0 places ++ exponentText 0
    else
      let d := significant m e (places + 1)
      -- rounding up may have added a digit
      let d := if digitCount d.digits = places + 1 then d else ⟨d.digits / 10, d.exponent + 1⟩
      pointText d.digits places ++ exponentText d.leading

end Workforce.Decimal
