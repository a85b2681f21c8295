import Workforce.Grid.Basic
import Workforce.Literal.Conversion
import Workforce.Literal.Discovery

/-!
# Building grids

A grid is built from a literal, from its shape alone, or from a function that is called once for
every entry. A literal has to be an array of numbers of the right dimensions; its entries are
rounded to binary32.
-/

namespace Workforce

/-- Why a literal is no matrix. Uneven lists and unreadable texts count as errors of shape. -/
inductive BuildError where
  | shape (e : ShapeError)
  | element (e : ConversionError)

namespace BuildError

def message : BuildError → String
  | shape e => e.message
  | element e => e.message

end BuildError

namespace Grid

/-- The grid with the given entries, row by row, short rows being filled up. -/
def ofEntries {α : Type} [Zero α] (rows cols : Nat) (as : Array α) : Grid α :=
  ⟨Mat.ofFn fun (i : Fin rows) (j : Fin cols) => as.getD (i * cols + j) 0⟩

/-- The array that a literal writes: its lengths and its entries. `uneven` is the error for lists
that form no array and for texts that write no number. -/
def readArray (uneven : ShapeError) (l : Literal) :
    Except BuildError (List Nat × Array Float32) := do
  let lengths ← (l.lengths Literal.maxDimensions).mapError fun _ => .shape uneven
  let elements ← l.atoms.mapM fun atom =>
    match atom.toElement with
    | .ok x => .ok (narrow x)
    | .error (.unreadable _) => .error (.shape uneven)
    | .error .sequence => .error (.shape uneven)
    | .error e => .error (.element e)
  pure (lengths, elements.toArray)

/-- The matrix that a literal writes. -/
def ofLiteral (l : Literal) : Except BuildError (Grid Float32) := do
  let (lengths, entries) ← readArray .unevenRows l
  match lengths with
  | [rows, cols] => pure (ofEntries rows cols entries)
  | _ => .error (.shape (.notTwoDimensional lengths.length))

/-- The vector that a literal writes: a flat list or a single column. -/
def columnOfLiteral (l : Literal) : Except BuildError (Grid Float32) := do
  let (lengths, entries) ← readArray .notFlat l
  match lengths with
  | [rows] => pure (ofEntries rows 1 entries)
  | [rows, 1] => pure (ofEntries rows 1 entries)
  | _ => .error (.shape (.notColumn lengths))

/-- Whether a literal is the number `n`. -/
def isLength (n : Nat) : Literal → Bool
  | .number q => q == .whole n
  | _ => false

/-- Whether literals are the numbers of rows and of columns. -/
def hasShape (A : Grid Float32) : List Literal → Bool
  | [r, c] => isLength A.rows r && isLength A.cols c
  | _ => false

/-- The rows of a matrix as a literal. -/
def toLiteral (A : Grid Float32) : Literal :=
  .list (A.toLists.map fun row => .list (row.map fun x => .real (widen x)))

/-- The entries of a vector as a flat literal. -/
def columnToLiteral (A : Grid Float32) : Literal :=
  .list (A.entries.map fun x => .real (widen x))

/-- Whether a literal writes a matrix with the entries of `A`. A literal that cannot be converted
writes none; only an integer out of range is an error. -/
def equalsLiteral (A : Grid Float32) (column : Bool) (l : Literal) : Except ConversionError Bool :=
  match readArray .unevenRows l with
  | .ok ([rows, cols], entries) => .ok (A.beq (ofEntries rows cols entries))
  | .ok ([rows], entries) => .ok (column && A.beq (ofEntries rows 1 entries))
  | .ok _ => .ok false
  | .error (.element .tooLarge) => .error .tooLarge
  | .error _ => .ok false

/-! ### Matrices of a given shape -/

/-- Rows and columns that are not negative. -/
def checkDims (rows cols : Int) : Except ShapeError (Nat × Nat) :=
  if rows < 0 ∨ cols < 0 then .error (.negative (.whole rows) (.whole cols))
  else .ok (rows.toNat, cols.toNat)

def zeros {α : Type} [Zero α] (rows cols : Int) : Except ShapeError (Grid α) := do
  let (rows, cols) ← checkDims rows cols
  pure ⟨(Mat.zero : Mat α rows cols)⟩

/-- Call a function once for every entry, row by row, and round its answers to binary32. A negative
shape is refused before any call; when a call fails, none follows it. -/
def generate {μ : Type → Type} [Monad μ] (rows cols : Int) (call : Nat → Nat → μ Float) :
    Except ShapeError (μ (Grid Float32)) := do
  let (rows, cols) ← checkDims rows cols
  pure (Grid.mk <$> Mat.ofFnM fun (i : Fin rows) (j : Fin cols) => narrow <$> call i j)

/-- A function of a row and a column, to be called one place after the other. What it answers to a
call, or how the call fails, may depend on the calls that were made before. -/
abbrev Callback (ε : Type) := Array (Nat × Nat) → Nat → Nat → Except ε Float

/-- One call of a function, which is put on record whether it fails or not. -/
def Callback.call {ε : Type} (f : Callback ε) (r c : Nat) :
    EStateM ε (Array (Nat × Nat)) Float := fun calls =>
  match f calls r c with
  | .ok y => .ok y (calls.push (r, c))
  | .error e => .error e (calls.push (r, c))

end Grid

end Workforce
