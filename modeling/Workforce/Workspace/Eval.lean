import Workforce.Workspace.Access
import Workforce.Workspace.Arithmetic

/-!
# Answering commands

A statement is evaluated in the current workspace, its effect is applied, and its answer gets a
name if one is given. A statement that fails changes nothing.
-/

namespace Workforce

namespace Workspace

/-! ### Construction -/

/-- An error of building as an error of a command. -/
def ofBuildError : BuildError → CommandError
  | .shape e => .shape e
  | .element e => .conversion e

/-- The matrix or vector that a literal writes. -/
def gridOf (kind : Kind) (data : Literal) : Except CommandError (Grid Float32) :=
  match kind with
  | .matrix => (Grid.ofLiteral data).mapError ofBuildError
  | .vector => (Grid.columnOfLiteral data).mapError ofBuildError

/-- The lengths that a shape is made of: a text is made of its characters. -/
def lengthsOf : Literal → Except CommandError (List Literal)
  | .list ls => .ok ls
  | .text s => .ok (s.toList.map fun c => .text c.toString)
  | .table fields => .ok (fields.map fun p => .text p.1)
  | l => .error (.notIterable l.kind)

/-- Check that a matrix has the shape, or a vector the length, that is announced of it. -/
def checkAnnounced (kind : Kind) (body : Grid Float32) : Option Literal → Except CommandError Unit
  | none => .ok ()
  | some .null => .ok ()
  | some announced =>
    match kind with
    | .matrix => do
      let lengths ← lengthsOf announced
      if body.hasShape lengths then .ok ()
      else .error (.shape (.unexpectedShape lengths body.shape))
    | .vector =>
      if Grid.isLength body.rows announced then .ok ()
      else .error (.shape (.unexpectedLength announced body.rows))

/-- Build a matrix or vector from a literal. The literal is converted before anything is made of
what is announced of it. -/
def evalBuild (kind : Kind) (data : Literal) (expected : Option Literal) :
    Except CommandError Effect := do
  let body ← gridOf kind data
  checkAnnounced kind body expected
  pure (.answer (.grid kind body))

/-- Build a matrix or vector from the entries of another: a vector hands over a flat list. -/
def evalRebuild (kind source : Kind) (body : Grid Float32) : Except CommandError Effect :=
  match kind, source with
  | .matrix, .matrix => .ok (.answer (.grid .matrix body))
  | .matrix, .vector => .error (.shape (.notTwoDimensional 1))
  | .vector, .vector => .ok (.answer (.grid .vector body))
  | .vector, .matrix =>
    if body.cols = 1 then .ok (.answer (.grid .vector body))
    else .error (.shape (.notColumn [body.rows, body.cols]))

/-- A number of rows or columns as it is compared with zero. -/
def comparedLength : Literal → Except CommandError Quantity
  | .number q => .ok q
  | l => .error (.length (.unordered l.kind))

/-- A number of rows or columns that is not negative. -/
def lengthOf : Quantity → Except CommandError Int
  | .flag _ => .error (.length .flag)
  | .real x => .error (.length (.notAnInteger (Literal.real x).kind))
  | .whole n => if Quantity.isPlace n then .ok n else .error (.length .tooLarge)

/-- Check that there is room for a matrix; its entries take four bytes each. Lengths of zero are
left out of the count. -/
def checkRoom (rows cols : Nat) : Except LengthError Unit :=
  let bytes := 4 * (rows * cols)
  if Storage.countable < 4 * (max rows 1 * max cols 1) then .error .uncountable
  else if Storage.room < bytes then .error (.noRoom rows cols bytes)
  else .ok ()

/-- Numbers of rows and columns; negative ones are refused before all else. -/
def dimensions (rows cols : Literal) : Except CommandError (Int × Int) := do
  let r ← comparedLength rows
  if r < 0 then .error (.shape (.negative rows cols))
  else
    let c ← comparedLength cols
    if c < 0 then .error (.shape (.negative rows cols))
    else
      let r ← lengthOf r
      let c ← lengthOf c
      (checkRoom r.toNat c.toNat).mapError .length
      pure (r, c)

/-- A matrix or vector of zeros. -/
def evalZeros (lengths : Dimensions) : Except CommandError Effect := do
  let (rows, cols) ← dimensions lengths.rows lengths.cols
  created lengths.kind (Grid.zeros rows cols)

/-- An identity matrix. -/
def evalIdentity (n : Literal) : Except CommandError Effect := do
  let (n, _) ← dimensions n n
  pure (.answer (.grid .matrix (Grid.identity n.toNat)))

/-- A matrix or vector with the values of a function. -/
def evalGenerate (lengths : Dimensions) (f : Grid.Callback CommandError) :
    Except CommandError Effect := do
  let (rows, cols) ← dimensions lengths.rows lengths.cols
  match Grid.generate rows cols f.call with
  | .error e => .error (.shape e)
  | .ok action =>
    match action.run #[] with
    | .error e _ => .error e
    | .ok body calls => pure (.generated (.grid lengths.kind body) calls.toList)

/-- The calls that were made by the last generator. -/
def evalCalls (w : Workspace) : Except CommandError Effect :=
  match w.calls with
  | some calls =>
    .ok (.answer (.ofLiteral (.list (calls.map fun (r, c) => .list [.whole r, .whole c]))))
  | none => .error .noCalls

/-! ### Statements -/

/-- What a command does, without doing it. -/
def eval : Command → Evaluation Effect
  | .build kind data expected => evalBuild kind data expected
  | .rebuild kind x => do
    let (_, source, body) ← gridOperand "to_numpy" x
    evalRebuild kind source body
  | .zeros lengths => evalZeros lengths
  | .identity n => evalIdentity n
  | .generate lengths f => evalGenerate lengths f
  | .calls => do (← get).evalCalls
  | .copy x => do evalCopy (← operand x)
  | .give x => do pure (.answer (← operand x).draft)
  | .get x index => do evalGet index (← operand x)
  | .set x index value => do evalSet index value (← operand x)
  | .view axis x index => do
    let (id, _, body) ← gridOperand axis.text x
    evalView axis id body index
  | .elements x => do evalElements (← operand x)
  | .reversed x => do evalReversed (← operand x)
  | .contains x value => do evalContains (← operand (.literal value)) (← operand x)
  | .find x value => do evalFind (← operand (.literal value)) (← operand x)
  | .count x value => do evalCount (← operand (.literal value)) (← operand x)
  | .sourceIs x y => do
    match ← operand x with
    | .line _ view _ =>
      match ← operand y with
      | .grid id _ _ => pure (decided (view.source == id))
      | _ => pure (decided false)
    | c => throw (.noMember c.kindText "matrix")
  | .length x => do evalLength (← operand x)
  | .toList x => do
    let (_, kind, body) ← gridOperand "tolist" x
    pure (.answer (.ofLiteral (gridLiteral kind body)))
  | .display x => do pure (answered (.text (← operand x).shown))
  | .hash x => do throw (.unhashable (← operand x).kindText)
  | .shape x => do
    let (_, _, body) ← gridOperand "shape" x
    pure (evalShape body)
  | .neg x => do evalNeg (← operand x)
  | .transpose member x => do
    let (_, _, body) ← gridOperand member x
    pure (.answer (.grid .matrix body.transpose))
  | .binary op x y => do
    let t ← operand x
    evalBinary op t (← operand y)
  | .normSquared x => do
    let (_, _, body) ← gridOperand "norm_squared" x
    pure (answered (.real (widen body.normSquared)))
  | .isFinite x => do
    let (_, _, body) ← gridOperand "is_finite" x
    pure (decided (body.entries.all Precision.isFinite))
  | .equal negated x y => do
    let t ← operand x
    evalEqual negated t (← operand y)
  | .zipMap f x y => do
    match ← operand x with
    | .grid _ .vector A => evalZipMap f A (← operand y)
    | c => throw (.noMember c.kindText "zip_map")
  | .entrywiseMul x y => do
    match ← operand x with
    | .grid _ .vector A => evalEntrywiseMul A (← operand y)
    | c => throw (.noMember c.kindText "component_mul")

/-- Run one statement: its answer or error, and the workspace after it. -/
def run (w : Workspace) (s : Statement) : Except CommandError Value × Workspace :=
  match (eval s.command).run w with
  | .error e => (.error e, w)
  | .ok (effect, w) =>
    let (v, w) := w.apply effect
    match s.target with
    | some name => (.ok v, w.bind name v)
    | none => (.ok v, w)

/-- A statement that fails changes nothing. -/
theorem run_of_error {w : Workspace} {s : Statement} {e : CommandError}
    (h : (eval s.command).run w = .error e) : w.run s = (.error e, w) := by simp [run, h]

end Workspace

end Workforce
