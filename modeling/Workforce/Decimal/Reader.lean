import Workforce.Text.Classes

/-!
# Reading decimal text

A number is written as digits, with an optional sign, point and exponent, and single underscores
between digits; infinities and the undefined value have names. `readFloat?` gives the binary64
number nearest to the decimal that a text writes, `readInt?` the integer.
-/

namespace Workforce.Decimal

open Text

/-- The leading digits of a text and the rest of it. A single underscore may stand between two
digits; `afterDigit` says whether a digit has just been read. -/
def digitsFrom (afterDigit : Bool) : List Char → List Nat × List Char
  | [] => ([], [])
  | c :: cs =>
    match digit? c with
    | some d =>
      let (ds, rest) := digitsFrom true cs
      (d :: ds, rest)
    | none =>
      if afterDigit ∧ c = '_' then
        match digitsFrom false cs with
        | ([], _) => ([], c :: cs)
        | found => found
      else ([], c :: cs)

/-- The leading digits of a text and the rest of it. -/
def takeDigits (cs : List Char) : List Nat × List Char := digitsFrom false cs

/-- A sign, a minus being `true`, and the rest of the text. -/
def takeSign : List Char → Bool × List Char
  | '-' :: cs => (true, cs)
  | '+' :: cs => (false, cs)
  | cs => (false, cs)

/-- The number that a list of digits writes. -/
def ofDigits (ds : List Nat) : Nat := ds.foldl (fun n d => 10 * n + d) 0

/-- The exponent after a number, zero if there is none; nothing else may follow. -/
def readExponent? : List Char → Option Int
  | [] => some 0
  | c :: cs =>
    if c = 'e' ∨ c = 'E' then
      let (minus, cs) := takeSign cs
      match takeDigits cs with
      | ([], _) => none
      | (ds, []) => some (if minus then -ofDigits ds else ofDigits ds)
      | _ => none
    else none

/-- `digits · 10 ^ exponent`, rounded to the nearest binary64 number. -/
def nearest (digits : Nat) (exponent : Int) : Float :=
  -- far outside the range of finite numbers the answer is known at once
  let magnitude := (Nat.toDigits 10 digits).length + exponent
  if digits = 0 ∨ magnitude < -400 then 0
  else if 400 < magnitude then 1 / 0
  else Float.ofScientific digits (exponent < 0) exponent.natAbs

/-- An unsigned number: a name, or digits with an optional point and exponent. -/
def readUnsigned? (cs : List Char) : Option Float :=
  let name := String.ofList (cs.map Char.toLower)
  if name = "inf" ∨ name = "infinity" then some (1 / 0)
  else if name = "nan" then some (0 / 0)
  else
    let (whole, rest) := takeDigits cs
    let (fraction, rest) := match rest with
      | '.' :: rest => takeDigits rest
      | _ => ([], rest)
    if whole = [] ∧ fraction = [] then none
    else
      (readExponent? rest).map fun k =>
        nearest (ofDigits (whole ++ fraction)) (k - fraction.length)

/-- The number that a text writes, blanks around it ignored. -/
def readFloat? (s : String) : Option Float :=
  let (minus, cs) := takeSign (trim s.toList)
  (readUnsigned? cs).map fun x => if minus then -x else x

/-- The integer that a text writes, blanks around it ignored. -/
def readInt? (s : String) : Option Int :=
  let (minus, cs) := takeSign (trim s.toList)
  match takeDigits cs with
  | ([], _) => none
  | (ds, []) => some (if minus then -ofDigits ds else ofDigits ds)
  | _ => none

end Workforce.Decimal
