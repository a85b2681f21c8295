import Workforce.Literal.Conversion
import Workforce.Number.Storage

/-!
# Arithmetic on literals

Numbers are added and multiplied as quantities. A text or a list is repeated by an integer and
joined with its like; every other combination is an error that names both kinds.
-/

namespace Workforce

/-- Why an operation on two values fails. -/
inductive OperandError where
  /-- The two kinds have no such operation. -/
  | unsupported (op left right : String)
  /-- A text or list is joined with something else. -/
  | notJoined (left right : String)
  /-- A text or list is repeated by something that is no integer. -/
  | notRepeated (times : String)
  /-- A text or list is repeated by an integer that counts no places. -/
  | tooManyTimes
  /-- A repeated text whose length cannot be counted. -/
  | tooLong
  /-- A repeated text or list that there is no room for. -/
  | noRoom
  /-- An integer is out of the range of real numbers. -/
  | tooLarge

namespace OperandError

def message : OperandError → String
  | unsupported op left right =>
    "unsupported operand type(s) for " ++ op ++ ": '" ++ left ++ "' and '" ++ right ++ "'"
  | notJoined left right =>
    "can only concatenate " ++ left ++ " (not \"" ++ right ++ "\") to " ++ left
  | notRepeated times => "can't multiply sequence by non-int of type '" ++ times ++ "'"
  | tooManyTimes => "cannot fit 'int' into an index-sized integer"
  | tooLong => "repeated string is too long"
  | noRoom => ""
  | tooLarge => ConversionError.tooLarge.message

end OperandError

namespace Quantity

/-- Whether two quantities can be combined: a real number meets no integer out of range. -/
def combines (a b : Quantity) : Bool :=
  match a, b with
  | real _, b => b.fits
  | a, real _ => a.fits
  | _, _ => true

end Quantity

namespace Literal

/-- How often a text or list is repeated by a number. -/
def times (q : Quantity) : Except OperandError Int :=
  match q.toInt? with
  | none => .error (.notRepeated (number q).kind)
  | some n => if Quantity.isPlace n then .ok n else .error .tooManyTimes

/-- A list repeated by a number. An item takes eight bytes. -/
def repeatList {α : Type} (as : List α) (q : Quantity) : Except OperandError (List α) := do
  let n ← times q
  if as.isEmpty then pure []
  else if Storage.room < 8 * (as.length * n.toNat) then .error .noRoom
  else pure (List.replicate n.toNat as).flatten

/-- A text repeated by a number. A character takes at least one byte. -/
def repeatText (s : String) (q : Quantity) : Except OperandError String := do
  let n ← times q
  if s.isEmpty then pure ""
  else if Storage.countable < s.length * n.toNat then .error .tooLong
  else if Storage.room < s.length * n.toNat then .error .noRoom
  else pure (String.ofList (List.replicate n.toNat s.toList).flatten)

/-- The operation of quantities on two numbers. -/
def combine (f : Quantity → Quantity → Quantity) (a b : Quantity) : Except OperandError Literal :=
  if a.combines b then .ok (number (f a b)) else .error .tooLarge

/-- Whether a literal can be repeated. -/
def isSequence : Literal → Bool
  | text _ => true
  | list _ => true
  | _ => false

def mul (a b : Literal) : Except OperandError Literal :=
  match a, b with
  | number p, number q => combine (· * ·) p q
  | text s, number q | number q, text s => (repeatText s q).map text
  | list ls, number q | number q, list ls => (repeatList ls q).map list
  | a, b =>
    if a.isSequence then .error (.notRepeated b.kind)
    else if b.isSequence then .error (.notRepeated a.kind)
    else .error (.unsupported "*" a.kind b.kind)

def add (a b : Literal) : Except OperandError Literal :=
  match a, b with
  | number p, number q => combine (· + ·) p q
  | text s, text t => .ok (text (s ++ t))
  | list ls, list ls' => .ok (list (ls ++ ls'))
  | a, b =>
    if a.isSequence then .error (.notJoined a.kind b.kind)
    else .error (.unsupported "+" a.kind b.kind)

def sub (a b : Literal) : Except OperandError Literal :=
  match a, b with
  | number p, number q => combine (· - ·) p q
  | a, b => .error (.unsupported "-" a.kind b.kind)

mutual

/-- Whether two literals have the same value: numbers are compared by their values. -/
def equals : Literal → Literal → Bool
  | null, null => true
  | number p, number q => p == q
  | text s, text t => s == t
  | list ls, list ls' => equalsAll ls ls'
  | table fs, table fs' => fs.length == fs'.length && equalsFields fs fs'
  | _, _ => false

/-- Whether two lists have the same values, place by place. -/
def equalsAll : List Literal → List Literal → Bool
  | [], [] => true
  | l :: ls, l' :: ls' => l.equals l' && equalsAll ls ls'
  | _, _ => false

/-- Whether the fields of a table are found in another with the same values. -/
def equalsFields : List (String × Literal) → List (String × Literal) → Bool
  | [], _ => true
  | (name, l) :: fields, others =>
    (match others.find? fun p => p.1 == name with
      | some p => l.equals p.2
      | none => false) && equalsFields fields others

end

/-- Whether a literal is a number of the given value. -/
def isNumber (x : Quantity) : Literal → Bool
  | number q => q == x
  | _ => false

end Literal

end Workforce
