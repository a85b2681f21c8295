import Workforce.Workspace.Assignment
import Workforce.Workspace.Basic

/-!
# Commands

The commands that a workspace answers, and why they fail. Operands are names or literals, functions
of entries and of places may be any that fail in the same ways; a statement may give its answer a
name.
-/

namespace Workforce

/-- An operand is a name or a literal. -/
inductive Operand where
  | name (s : String)
  | literal (l : Literal)

/-- Operations between two operands. -/
inductive BinaryOp where
  | add
  | sub
  | mul
  | matmul
deriving DecidableEq, Repr

namespace BinaryOp

/-- The sign of an operation. -/
def sign : BinaryOp → String
  | add => "+"
  | sub => "-"
  | mul => "*"
  | matmul => "@"

end BinaryOp

/-- The lengths of a matrix, or of a vector, which has one column. -/
inductive Dimensions where
  | matrix (rows cols : Literal)
  | vector (length : Literal)

namespace Dimensions

def kind : Dimensions → Kind
  | matrix .. => .matrix
  | vector _ => .vector

def rows : Dimensions → Literal
  | matrix rows _ => rows
  | vector length => length

def cols : Dimensions → Literal
  | matrix _ cols => cols
  | vector _ => .whole 1

end Dimensions

/-- Why a command about a list, text or table fails. -/
inductive CollectionError where
  /-- A place that a list does not have. -/
  | noItem
  /-- A place that a list does not have, for a new item. -/
  | noPlace
  /-- A place that a text does not have. -/
  | noCharacter
  /-- A place in a list that is no integer. -/
  | listPlace (kind : String)
  /-- A place in a text that is no integer. -/
  | textPlace (kind : String)
  /-- An integer that counts no places. -/
  | tooLarge
  /-- A key that a table does not have. -/
  | noKey (shown : String)
  /-- A value that a list does not hold. -/
  | notHeld (shown : String)
  /-- A text that does not occur in another. -/
  | noOccurrence
  /-- Something that is looked for in a text and is no text. -/
  | notText (kind : String)
  /-- Something that is said to be in a text and is no text. -/
  | notInText (kind : String)
  /-- Something that can hold nothing. -/
  | notAContainer (kind : String)

namespace CollectionError

def message : CollectionError → String
  | noItem => "list index out of range"
  | noPlace => "list assignment index out of range"
  | noCharacter => "string index out of range"
  | listPlace kind => s!"list indices must be integers or slices, not {kind}"
  | textPlace kind => s!"string indices must be integers, not '{kind}'"
  | tooLarge => "cannot fit 'int' into an index-sized integer"
  | noKey shown => shown
  | notHeld shown => s!"{shown} is not in list"
  | noOccurrence => "substring not found"
  | notText kind => s!"must be str, not {kind}"
  | notInText kind => s!"'in <string>' requires string as left operand, not {kind}"
  | notAContainer kind => s!"argument of type '{kind}' is not iterable"

end CollectionError

/-- Why literals are no numbers of rows and columns of a matrix. -/
inductive LengthError where
  /-- It does not compare with zero. -/
  | unordered (kind : String)
  | notAnInteger (kind : String)
  /-- It is a truth value. -/
  | flag
  | tooLarge
  /-- A size that cannot be counted. -/
  | uncountable
  /-- A size that there is no room for. -/
  | noRoom (rows cols bytes : Nat)

namespace LengthError

def message : LengthError → String
  | unordered kind => s!"'<' not supported between instances of '{kind}' and 'int'"
  | notAnInteger kind => s!"'{kind}' object cannot be interpreted as an integer"
  | flag => "an integer is required"
  | tooLarge => "Maximum allowed dimension exceeded"
  | uncountable =>
    "array is too big; `arr.size * arr.dtype.itemsize` is larger than the maximum possible size."
  | noRoom rows cols bytes =>
    s!"Unable to allocate {Storage.text bytes} for an array with shape ({rows}, {cols}) and " ++
      "data type float32"

end LengthError

/-- Why a command fails. -/
inductive CommandError where
  | unknownName (name : String)
  | shape (e : ShapeError)
  | conversion (e : ConversionError)
  | operand (e : OperandError)
  | index (e : IndexError)
  | assignment (e : AssignmentError)
  | collection (e : CollectionError)
  | length (e : LengthError)
  /-- A row or column that a matrix does not have. -/
  | noLine (axis : Axis) (index : Int) (shape : Shape)
  /-- An entry that a view does not have. -/
  | noEntry (index : Quantity)
  /-- An index of a line that is no number. -/
  | unorderedIndex (kind : String)
  | noMember (kind member : String)
  | readOnly (kind : String)
  | notIndexed (kind : String)
  | notIterable (kind : String)
  | noLength (kind : String)
  | noNegation (kind : String)
  | notReversible (kind : String)
  /-- The position of a view is a number and cannot be asked for another. -/
  | notCallable
  | unhashable (kind : String)
  | divisionByZero
  | noCalls

namespace CommandError

def message : CommandError → String
  | unknownName name => Text.quoted name
  | shape e => e.message
  | conversion e => e.message
  | operand e => e.message
  | index e => e.message
  | assignment e => e.message
  | collection e => e.message
  | length e => e.message
  | noLine axis i found => s!"{axis.text} {i} out of range for {found.text} matrix."
  | noEntry i => i.text
  | unorderedIndex kind => s!"'<=' not supported between instances of 'int' and '{kind}'"
  | noMember kind member => s!"'{kind}' object has no attribute '{member}'"
  | readOnly kind => s!"'{kind}' object does not support item assignment"
  | notIndexed kind => s!"'{kind}' object is not subscriptable"
  | notIterable kind => s!"'{kind}' object is not iterable"
  | noLength kind => s!"object of type '{kind}' has no len()"
  | noNegation kind => s!"bad operand type for unary -: '{kind}'"
  | notReversible kind => s!"'{kind}' object is not reversible"
  | notCallable => "'int' object is not callable"
  | unhashable kind => s!"unhashable type: '{kind}'"
  | divisionByZero => "float division by zero"
  | noCalls => "'$calls'"

end CommandError

/-- What a workspace can be asked to do. -/
inductive Command where
  | build (kind : Kind) (data : Literal) (expected : Option Literal)
  | rebuild (kind : Kind) (x : Operand)
  | zeros (lengths : Dimensions)
  | identity (n : Literal)
  | generate (lengths : Dimensions) (f : Grid.Callback CommandError)
  | calls
  | copy (x : Operand)
  | give (x : Operand)
  | get (x : Operand) (index : Literal)
  | set (x : Operand) (index value : Literal)
  | view (axis : Axis) (x : Operand) (index : Int)
  | elements (x : Operand)
  | reversed (x : Operand)
  | contains (x : Operand) (value : Literal)
  | find (x : Operand) (value : Literal)
  | count (x : Operand) (value : Literal)
  | sourceIs (x y : Operand)
  | length (x : Operand)
  | toList (x : Operand)
  | display (x : Operand)
  | hash (x : Operand)
  | shape (x : Operand)
  | neg (x : Operand)
  | transpose (member : String) (x : Operand)
  | binary (op : BinaryOp) (x y : Operand)
  | normSquared (x : Operand)
  | isFinite (x : Operand)
  | equal (negated : Bool) (x y : Operand)
  | zipMap (f : Float → Float → Except CommandError Float) (x y : Operand)
  | entrywiseMul (x y : Operand)

/-- A command, and the name that its answer is given. -/
structure Statement where
  command : Command
  target : Option String

end Workforce
