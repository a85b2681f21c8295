import Workforce.Decimal.Reader
import Workforce.Literal.Basic
import Workforce.Settings.Basic

/-!
# Values of settings

A setting is given as a text or a literal, and converted to the type of its field: texts are read,
truth values count as numbers, and a real number without fraction passes for an integer. Each
field bounds its values. A value that is refused leaves an error that says why.
-/

namespace Workforce

/-- A bound on a number. -/
inductive Bound where
  | below (b : Int)
  | atLeast (b : Int)
  | above (b : Int)
deriving DecidableEq, Repr

/-- Why the value of a setting is refused. -/
inductive ValueError where
  | notANumber
  | unreadableNumber
  | notAnInteger
  | unreadableInteger
  | fractional
  | notFinite
  | tooLong
  | notALevel
  | outOfBound (b : Bound)
  /-- The line search would start at or below its floor. -/
  | floorNotBelowStart
deriving DecidableEq, Repr

namespace ValueError

/-- The name of a reason. -/
def code : ValueError → String
  | notANumber => "float_type"
  | unreadableNumber => "float_parsing"
  | notAnInteger => "int_type"
  | unreadableInteger => "int_parsing"
  | fractional => "int_from_float"
  | notFinite => "finite_number"
  | tooLong => "int_parsing_size"
  | notALevel => "enum"
  | outOfBound (.below _) => "less_than"
  | outOfBound (.atLeast _) => "greater_than_equal"
  | outOfBound (.above _) => "greater_than"
  | floorNotBelowStart => "value_error"

def message : ValueError → String
  | notANumber => "Input should be a valid number"
  | unreadableNumber => "Input should be a valid number, unable to parse string as a number"
  | notAnInteger => "Input should be a valid integer"
  | unreadableInteger => "Input should be a valid integer, unable to parse string as an integer"
  | fractional => "Input should be a valid integer, got a number with a fractional part"
  | notFinite => "Input should be a finite number"
  | tooLong => "Unable to parse input string as an integer, exceeded maximum size"
  | notALevel => "Input should be 'DEBUG', 'INFO', 'WARNING', 'ERROR' or 'CRITICAL'"
  | outOfBound (.below b) => s!"Input should be less than {b}"
  | outOfBound (.atLeast b) => s!"Input should be greater than or equal to {b}"
  | outOfBound (.above b) => s!"Input should be greater than {b}"
  | floorNotBelowStart =>
    "Value error, LINE_SEARCH_ALPHA_FLOOR must be below LINE_SEARCH_INITIAL_ALPHA."

end ValueError

namespace Bound

/-- Whether a number satisfies a bound; one that does not compare satisfies none. -/
def holds (x : Quantity) : Bound → Bool
  | below b => decide (x < .whole b)
  | atLeast b => decide (.whole b ≤ x)
  | above b => decide (.whole b < x)

/-- The first of a list of bounds that a number violates. -/
def firstViolated? (bounds : List Bound) (x : Quantity) : Option Bound :=
  bounds.find? fun b => !b.holds x

end Bound

namespace Settings

/-- A text without its underscores, if each of them stands alone and inside it. -/
def withoutUnderscores? (cs : List Char) : Option (List Char) :=
  if cs.head? = some '_' ∨ cs.getLast? = some '_' then none
  else if (cs.zip (cs.drop 1)).any fun p => p.1 == '_' && p.2 == '_' then none
  else some (cs.filter (· != '_'))

/-- The real number that a text writes in plain digits, with nothing around it. -/
def plainReal? (cs : List Char) : Option Float :=
  if cs.all fun c => decide (c.toNat < 128) && !Text.isBlank c then
    Decimal.readFloat? (String.ofList cs)
  else none

/-- The real number that a text writes: with blanks around it, or with underscores inside it. -/
def readReal? (s : String) : Option Float :=
  let cs := s.toList
  if '_' ∈ cs then withoutUnderscores? cs >>= plainReal? else plainReal? (Text.trim cs)

/-- What follows a zero or underscore `before` in an integer: without the zeros and underscores up
to a digit that counts. The last character before a point or the end stays. -/
def afterZero? (before : Char) : List Char → Option (List Char)
  | [] => some [before]
  | c :: cs =>
    if c = '.' then some (before :: c :: cs)
    else if c = '0' ∨ c = '_' then afterZero? c cs
    else if c.isDigit ∨ c = '-' then some (c :: cs)
    else none

/-- An integer without leading zeros. -/
def withoutLeadingZeros? : List Char → Option (List Char)
  | [] => none
  | c :: cs =>
    if c = '0' then afterZero? c cs
    else if c.isDigit ∨ c = '-' then some (c :: cs)
    else none

/-- An integer without a fraction of zeros, at least one of which has to follow the point. -/
def withoutZeroFraction (cs : List Char) : List Char :=
  let whole := cs.takeWhile (· != '.')
  let fraction := cs.drop (whole.length + 1)
  if !fraction.isEmpty && fraction.all (· == '0') then whole else cs

/-- The integer that a text writes in plain digits, with at most a minus sign in front: zero has
one digit, and other numbers begin with another digit and have at most 4300. -/
def plainInteger (cs : List Char) : Except ValueError Int :=
  let minus := cs.head? = some '-'
  let unsigned := if minus then cs.drop 1 else cs
  let digits := unsigned.takeWhile Char.isDigit
  let startsWithZero := digits.head? = some '0'
  if !startsWithZero ∧ 4300 < digits.length then .error .tooLong
  else if digits.isEmpty ∨ digits.length < unsigned.length ∨
      (startsWithZero ∧ 1 < digits.length) then
    .error .unreadableInteger
  else
    let n := Decimal.ofDigits (digits.map fun c => c.toNat - 48)
    .ok (if minus then -n else n)

/-- The integer that a text writes: with a plus sign or leading zeros, underscores between digits,
a fraction of zeros, and blanks around it. -/
def readInteger (s : String) : Except ValueError Int :=
  let trimmed := Text.trim s.toList
  let unsigned := if trimmed.head? = some '+' then trimmed.drop 1 else trimmed
  match withoutLeadingZeros? unsigned with
  | none => .error .unreadableInteger
  | some cs =>
    let cs := withoutZeroFraction cs
    plainInteger ((withoutUnderscores? cs).getD cs)

/-- The real number that a literal stands for as a setting. -/
def toReal : Literal → Except ValueError Float
  | .number q => if q.fits then .ok q.toFloat else .error .notANumber
  | .text s =>
    match readReal? s with
    | some x => .ok x
    | none => .error .unreadableNumber
  | _ => .error .notANumber

/-- The integer that a real number without fraction is. -/
def integerOf (x : Float) : Except ValueError Int :=
  match Parts.of x with
  | .finite negative m e =>
    let (num, den) := Decimal.powFraction 2 e
    let n := m * num / den
    if m * num % den ≠ 0 then .error .fractional
    else if n < 0x8000000000000000 then .ok (if negative then -n else n)
    else .error .tooLong
  | _ => .error .notFinite

/-- The integer that a literal stands for as a setting. -/
def toInteger : Literal → Except ValueError Int
  | .number (.real x) => integerOf x
  | .number q => .ok (q.toInt?.getD 0)
  | .text s => readInteger s
  | _ => .error .notAnInteger

/-- The level that a literal names. -/
def toLevel : Literal → Except ValueError LogLevel
  | .text s =>
    match LogLevel.ofText? s with
    | some l => .ok l
    | none => .error .notALevel
  | _ => .error .notALevel

/-- A number within bounds. -/
def bounded {τ : Type} (toQuantity : τ → Quantity) (bounds : List Bound) (x : τ) :
    Except ValueError τ :=
  match Bound.firstViolated? bounds (toQuantity x) with
  | some b => .error (.outOfBound b)
  | none => .ok x

end Settings

end Workforce
