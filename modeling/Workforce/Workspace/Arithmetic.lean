import Workforce.Number.Order
import Workforce.Workspace.Effect

/-!
# Operations on values

Matrices are added, multiplied and compared with each other, and scaled by numbers; other values
follow the rules of literals. Lists are joined and repeated without copying their items.
-/

namespace Workforce.Workspace

/-- The product of a matrix with a number on either side. -/
def evalScale (kind : Kind) (body : Grid Float32) (q : Quantity) : Except CommandError Effect :=
  match (Steering.toEntry q : Option Float32) with
  | some k => .ok (.answer (.grid kind (body.scale k)))
  | none => .error (.conversion .tooLarge)

/-- An operation between two atoms. -/
def literalOp : BinaryOp → Literal → Literal → Except OperandError Literal
  | .add, l, l' => l.add l'
  | .sub, l, l' => l.sub l'
  | .mul, l, l' => l.mul l'
  | .matmul, l, l' => .error (.unsupported "@" l.kind l'.kind)

/-- Whether a value can be joined and repeated. -/
def isSequence : Content → Bool
  | .list .. => true
  | .atom l => l.isSequence
  | _ => false

/-- The error of an operation that the kinds of its operands do not have. -/
def unsupported (op : BinaryOp) (t u : Content) : OperandError :=
  match op with
  | .add =>
    if isSequence t then .notJoined t.kindText u.kindText
    else .unsupported op.sign t.kindText u.kindText
  | .mul =>
    if isSequence t then .notRepeated u.kindText
    else if isSequence u then .notRepeated t.kindText
    else .unsupported op.sign t.kindText u.kindText
  | op => .unsupported op.sign t.kindText u.kindText

/-- A list with items repeated by a number. -/
def evalRepeat (items : List Content) (q : Quantity) : Except CommandError Effect := do
  pure (.answer (.list (← (Literal.repeatList (items.map Content.draft) q).mapError .operand)))

/-- An operation on two values. The answer has the kind of the left one; a product is a vector
exactly when its right operand is one. -/
def evalBinary (op : BinaryOp) (t u : Content) : Except CommandError Effect :=
  match op, t, u with
  | .add, .grid _ kind A, .grid _ _ B => created kind (A.add B)
  | .sub, .grid _ kind A, .grid _ _ B => created kind (A.sub B)
  | .matmul, .grid _ _ A, .grid _ kind B => created kind (A.mul B)
  | .mul, .grid _ kind A, .atom (.number q) => evalScale kind A q
  | .mul, .atom (.number q), .grid _ kind A => evalScale kind A q
  | .add, .list _ items, .list _ items' =>
    .ok (.answer (.list (items.map Content.draft ++ items'.map Content.draft)))
  | .mul, .list _ items, .atom (.number q) => evalRepeat items q
  | .mul, .atom (.number q), .list _ items => evalRepeat items q
  | op, .atom l, .atom l' => do pure (answered (← (literalOp op l l').mapError .operand))
  | op, t, u => .error (.operand (unsupported op t u))

/-- The value with the other sign. -/
def evalNeg : Content → Except CommandError Effect
  | .grid _ kind body => .ok (.answer (.grid kind body.neg))
  | .atom (.number q) => .ok (answered (.number q.neg))
  | c => .error (.noNegation c.kindText)

/-- Whether two values are equal. A matrix is compared with a list, view or atom by the entries
that they write. -/
def contentsEqual (t u : Content) : Except ConversionError Bool :=
  match t, u with
  | .grid _ _ A, .grid _ _ B => .ok (A.beq B)
  | .grid _ kind A, c | c, .grid _ kind A => A.equalsLiteral (kind == .vector) c.literal
  | t, u => .ok (t.equals u)

/-- Whether two values are equal, or whether they are not. -/
def evalEqual (negated : Bool) (t u : Content) : Except CommandError Effect := do
  pure (decided ((← (contentsEqual t u).mapError .conversion) != negated))

end Workforce.Workspace

namespace Workforce

/-- Combine two vectors entry by entry in binary64, and round the results. -/
def Grid.zipColumns (f : Float → Float → Except CommandError Float) (A B : Grid Float32) :
    Except CommandError (Grid Float32) :=
  if A.shape = B.shape then do
    let xs ← (A.entries.zip B.entries).mapM fun (a, b) => f (widen a) (widen b)
    pure (ofColumn (xs.map narrow))
  else .error (.shape (.unequal .zip A.shape B.shape))

namespace Workspace

/-- Combine a vector with another value entry by entry. -/
def evalZipMap (f : Float → Float → Except CommandError Float) (A : Grid Float32) :
    Content → Except CommandError Effect
  | .grid _ .vector B => do pure (.answer (.grid .vector (← A.zipColumns f B)))
  | .grid _ .matrix B =>
    if A.shape ≠ B.shape then .error (.shape (.unequal .zip A.shape B.shape))
    -- a matrix is not indexed by a single number
    else if A.rows = 0 then .ok (.answer (.grid .vector A))
    else .error (.index (.notAPair "0"))
  | c => .error (.noMember c.kindText "shape")

/-- Multiply a vector with another value entry by entry. -/
def evalEntrywiseMul (A : Grid Float32) : Content → Except CommandError Effect
  | .grid _ _ B => created .vector (A.entrywiseMul B)
  | c => .error (.noMember c.kindText "shape")

end Workspace

end Workforce
