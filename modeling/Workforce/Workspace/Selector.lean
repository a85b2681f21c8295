import Workforce.Grid.Shape
import Workforce.Literal.Broadcast
import Workforce.Literal.Discovery

/-!
# Selectors

A member of an index pair selects lines of a matrix. An integer selects one line, counted from the
end when negative, and an array of integers several lines. An array of flags selects the lines at
which it holds, over as many axes as it has dimensions. Nothing at all adds an axis of length one.
-/

namespace Workforce

/-- Why an index selects nothing. -/
inductive IndexError where
  /-- The index is no pair. -/
  | notAPair (shown : String)
  /-- A member of the pair is no index. -/
  | notAnIndex
  /-- An integer that is too large to count lines. -/
  | tooLarge
  /-- Lists that form no array. -/
  | nesting (e : NestingError)
  /-- Flags and integers for more axes than there are. -/
  | tooMany (axes : Nat)
  /-- A selection with too many dimensions. -/
  | tooDeep (limit found : Nat)
  /-- Flags for another number of lines than an axis has. -/
  | maskMismatch (axis size found : Nat)
  /-- A line that the matrix does not have. -/
  | outOfBounds (index : Int) (axis size : Nat)
  /-- Arrays that cannot be stretched to one shape. -/
  | mismatched (shapes : List (List Nat))
  /-- Several entries where one is wanted. -/
  | notScalar

namespace IndexError

def message : IndexError → String
  | notAPair shown =>
    "matrix index must be a (row, column) pair, got " ++ shown ++ "; use row(r) for a whole row."
  | notAnIndex =>
    "only integers, slices (`:`), ellipsis (`...`), numpy.newaxis (`None`) and integer or " ++
      "boolean arrays are valid indices"
  | tooLarge => "Python int too large to convert to C long"
  | nesting e => e.message
  | tooMany axes =>
    s!"too many indices for array: array is 2-dimensional, but {axes} were indexed"
  | tooDeep limit found =>
    s!"number of dimensions must be within [0, {limit}], indexing result would have {found}"
  | maskMismatch axis size found =>
    s!"boolean index did not match indexed array along axis {axis}; size of axis is {size} but " ++
      s!"size of corresponding boolean axis is {found}"
  | outOfBounds index axis size =>
    s!"index {index} is out of bounds for axis {axis} with size {size}"
  | mismatched shapes =>
    let found := String.join (shapes.map fun lengths => Broadcast.text lengths ++ " ")
    s!"shape mismatch: indexing arrays could not be broadcast together with shapes {found}"
  | notScalar => "only 0-dimensional arrays can be converted to Python scalars"

end IndexError

/-- What a member of an index pair stands for. -/
inductive Selector where
  /-- One line of an axis. -/
  | line (i : Int)
  /-- A new axis. -/
  | fresh
  /-- Lines of an axis, arranged in an array. -/
  | lines (lengths : List Nat) (is : List Int)
  /-- An array of flags, in order. A single flag has no dimensions. -/
  | mask (lengths : List Nat) (flags : List Bool)

namespace Selector

/-- Integers from `2 ^ 63` on that are below `2 ^ 64`. -/
def isUnsigned (n : Int) : Bool := 0x8000000000000000 ≤ n && n < 0x10000000000000000

/-- The flag that a literal is. -/
def flag? : Literal → Option Bool
  | .number (.flag b) => some b
  | _ => none

/-- The integer that a literal in an array counts as, if that holds integers below `2 ^ 63`. -/
def signed? : Literal → Option Int
  | .number (.flag b) => some b.toInt
  | .number (.whole n) => if Quantity.isPlace n then some n else none
  | _ => none

/-- The integer that a literal in an array counts as, if that holds integers from `2 ^ 63` on: they
count from the other end. -/
def unsigned? : Literal → Option Int
  | .number (.flag b) => some b.toInt
  | .number (.whole n) => if isUnsigned n then some (n - 0x10000000000000000) else none
  | _ => none

/-- What an array of literals stands for; `none` if it is no array of integers or flags. -/
def ofArray? (lengths : List Nat) (atoms : List Literal) : Option Selector :=
  if lengths.contains 0 then some (lines lengths [])
  else
    match atoms.mapM flag? with
    | some flags => some (mask lengths flags)
    | none => (atoms.mapM signed? <|> atoms.mapM unsigned?).map (lines lengths)

/-- What a literal stands for. -/
def ofLiteral : Literal → Except IndexError Selector
  | .null => .ok fresh
  | .number (.flag b) => .ok (mask [] [b])
  | .number (.whole n) =>
    if Quantity.isPlace n then .ok (line n)
    else if isUnsigned n then .error .tooLarge
    else .error .notAnIndex
  | .list ls =>
    match (Literal.list ls).lengths Literal.maxDimensions with
    | .ok lengths =>
      match ofArray? lengths (Literal.atomsOf ls) with
      | some s => .ok s
      | none => .error .notAnIndex
    | .error e => .error (.nesting e)
  | _ => .error .notAnIndex

/-- The number of axes of a matrix that a selector takes. -/
def axes : Selector → Nat
  | line _ => 1
  | fresh => 0
  | lines .. => 1
  | mask lengths _ => lengths.length

/-- The number of axes that a selector adds. -/
def added : Selector → Nat
  | fresh => 1
  | _ => 0

/-- The number of dimensions of the arrays that a selector stands for. -/
def depth : Selector → Nat
  | line _ => 0
  | fresh => 0
  | lines lengths _ => lengths.length
  | mask .. => 1

/-- The number of dimensions of the entries that two selectors select in a matrix. -/
def dimensions (r c : Selector) : Nat :=
  r.added + c.added + max r.depth c.depth + (2 - (r.axes + c.axes))

end Selector

end Workforce
