import Workforce.Inverse.Elimination

/-!
# Factorizations

A matrix is factored once, and then the systems with it and with its transpose are solved for
many right hand sides. A triangular matrix is its own factor. A general one is the product of two
triangular matrices, up to the order of its rows. A symmetric one is reduced from its last row up,
by one or two rows at a time, which keeps it symmetric.
-/

namespace Workforce

variable {α : Type} {m n : Nat}

/-- What the inverse of a matrix, and the inverse of its transpose, do to a vector. -/
structure InverseAction (α : Type) (n : Nat) where
  apply : Vector α n → Vector α n
  applyTransposed : Vector α n → Vector α n

/-! ### Triangular matrices -/

namespace Mat

/-- Divide entry `j` of a right hand side by the diagonal, unless that counts as ones, and clear
column `j` in the entries that are `left`. -/
def substitute [Sub α] [Mul α] [Div α] (A : Mat α n n) (ones : Bool) (left : Fin n → Bool)
    (x : Vector α n) (j : Fin n) : Vector α n :=
  let y := if ones then x.get j else x.get j / A.get j j
  Vector.ofFn fun i => if i = j then y else if left i then x.get i - y * A.get i j else x.get i

/-- Solve a lower triangular system, from the top. -/
def solveLower [Sub α] [Mul α] [Div α] (A : Mat α n n) (ones : Bool) (b : Vector α n) :
    Vector α n :=
  (List.finRange n).foldl (fun x j => A.substitute ones (fun i => j < i) x j) b

/-- Solve an upper triangular system, from the bottom. -/
def solveUpper [Sub α] [Mul α] [Div α] (A : Mat α n n) (ones : Bool) (b : Vector α n) :
    Vector α n :=
  (List.finRange n).reverse.foldl (fun x j => A.substitute ones (fun i => i < j) x j) b

/-- The action of an upper triangular matrix. -/
def upperAction [Sub α] [Mul α] [Div α] (A : Mat α n n) : InverseAction α n :=
  ⟨A.solveUpper false, A.transpose.solveLower false⟩

/-- The action of a lower triangular matrix. -/
def lowerAction [Sub α] [Mul α] [Div α] (A : Mat α n n) : InverseAction α n :=
  ⟨A.solveLower false, A.transpose.solveUpper false⟩

end Mat

/-! ### General matrices -/

/-- Two triangular factors of a matrix whose rows were reordered: the upper one on and above the
diagonal, and below it the lower one, whose diagonal is all ones. -/
structure Factors (α : Type) (n : Nat) where
  body : Mat α n n
  /-- The row of the matrix that stands in each place. -/
  order : Vector (Fin n) n

namespace Factors

/-- The factors of a matrix before the first elimination. -/
def start (A : Mat α n n) : Factors α n := ⟨A, Vector.ofFn id⟩

/-- Bring the pivot of column `k` into row `k` and eliminate below it; `none` without a pivot. -/
def step [Zero α] [Sub α] [Mul α] [Div α] [Neg α] [BEq α] [LT α] [DecidableLT α]
    (F : Factors α n) (k : Fin n) : Option (Factors α n) :=
  let p := F.body.pivotRow k
  if F.body.get p k == 0 then none
  else
    let A := F.body.swapRows k p
    let factor := Vector.ofFn fun i => A.get i k / A.get k k
    some
      ⟨Mat.ofFn fun i j =>
        if k < i ∧ j = k then factor.get i
        else if k < i ∧ k < j then A.get i j - factor.get i * A.get k j
        else A.get i j,
      Vector.ofFn fun i => F.order.get (if i = k then p else if i = p then k else i)⟩

/-- The action of a factored matrix whose rows stay reordered. -/
def reorderedAction [Sub α] [Mul α] [Div α] (F : Factors α n) : InverseAction α n where
  apply b := F.body.solveUpper false (F.body.solveLower true b)
  applyTransposed b := F.body.transpose.solveUpper true (F.body.transpose.solveLower false b)

/-- Put the entries of a vector into the places of the rows that they belong to. -/
def restore (F : Factors α n) (x : Vector α n) : Vector α n :=
  (List.finRange n).foldl (fun y i => y.set (F.order.get i) (x.get i)) x

/-- The action of a factored matrix. -/
def action [Sub α] [Mul α] [Div α] (F : Factors α n) : InverseAction α n where
  apply b := F.reorderedAction.apply (Vector.ofFn fun i => b.get (F.order.get i))
  applyTransposed b := F.restore (F.reorderedAction.applyTransposed b)

end Factors

/-- The triangular factors of a matrix; `none` if some column has no pivot. -/
def Mat.factor? [Zero α] [Sub α] [Mul α] [Div α] [Neg α] [BEq α] [LT α] [DecidableLT α]
    (A : Mat α n n) : Option (Factors α n) :=
  (List.finRange n).foldlM Factors.step (.start A)

/-! ### Symmetric matrices -/

/-- The rows that a symmetric matrix is reduced by: its last one, after it has changed places with
row `p`, or its last two, after the upper one of them has changed places with row `p`. -/
inductive SymmetricPivot (n : Nat) where
  | one (p : Fin n)
  | two (p : Fin n)

/-- Exchange two entries. -/
def exchange (x : Vector α n) (p q : Fin n) : Vector α n :=
  Vector.ofFn fun i => x.get (if i = p then q else if i = q then p else i)

/-- The sum of the products of the entries of two vectors. -/
def dot [Zero α] [Add α] [Mul α] (x y : Vector α n) : α := sumFin n fun i => x.get i * y.get i

namespace Mat

/-- Exchange two rows and the same two columns. -/
def swapBoth (A : Mat α n n) (p q : Fin n) : Mat α n n :=
  (A.swapRows p q).transpose.swapRows p q

/-- The first of some entries of column `j` with the largest absolute value, if there are any. -/
def largestIn? [Zero α] [Neg α] [LT α] [DecidableLT α] (A : Mat α m n) (j : Fin n)
    (rows : List (Fin m)) : Option (Fin m) :=
  rows.foldl (fun best i =>
    match best with
    | none => some i
    | some p => if magnitude (A.get p j) < magnitude (A.get i j) then some i else some p) none

variable [Zero α] [One α] [Add α] [Sub α] [Mul α] [Div α] [Neg α] [BEq α] [LT α] [DecidableLT α]

/-- The pivot of a symmetric matrix: a diagonal entry that is not much smaller than the others in
its row, and otherwise two rows. There is none if the last row is zero. -/
def symmetricPivot? [Precision α] (A : Mat α (n + 1) (n + 1)) : Option (SymmetricPivot (n + 1)) :=
  let last := Fin.last n
  let threshold : α := Precision.pivotThreshold
  let size (i j : Fin (n + 1)) : α := magnitude (A.get i j)
  let others (i : Fin (n + 1)) : List (Fin (n + 1)) := (List.finRange (n + 1)).filter (· ≠ i)
  match A.largestIn? last (others last) with
  | none => if size last last == 0 then none else some (.one last)
  | some p =>
    let inColumn := size p last
    if larger (size last last) inColumn == 0 then none
    else if !decide (size last last < threshold * inColumn) then some (.one last)
    else
      let inRow := peak ((others p).map fun j => size j p)
      -- a small diagonal entry will still do where the other row is larger by as much
      if !decide (size last last < threshold * inColumn * (inColumn / inRow)) then some (.one last)
      else if !decide (size p p < threshold * inRow) then some (.one p)
      else some (.two p)

/-- What remains of a symmetric matrix after its last row, and the multiples of that row that were
subtracted from the others. -/
def reduceOne (A : Mat α (n + 1) (n + 1)) : Mat α n n × Vector α n :=
  let factor := 1 / A.get (Fin.last n) (Fin.last n)
  let column := Vector.ofFn fun i : Fin n => A.get i.castSucc (Fin.last n)
  let rest : Mat α n n := Mat.ofFn fun i j =>
    let (i, j) := if i < j then (i, j) else (j, i)
    A.get i.castSucc j.castSucc - column.get i * (factor * column.get j)
  (rest, column.map (· * factor))

/-- What remains of a symmetric matrix after its last two rows, and the multiples of the last one
and of the one before it that were subtracted from the others. -/
def reduceTwo (A : Mat α (n + 2) (n + 2)) : Mat α n n × Vector α n × Vector α n :=
  let k := Fin.last (n + 1)
  let k' := (Fin.last n).castSucc
  let up (i : Fin n) : Fin (n + 2) := i.castSucc.castSucc
  let d' := A.get k' k' / A.get k' k
  let d := A.get k k / A.get k' k
  let factor := 1 / (d * d' - 1) / A.get k' k
  let ofLast := Vector.ofFn fun j : Fin n => factor * (d' * A.get (up j) k - A.get (up j) k')
  let ofOther := Vector.ofFn fun j : Fin n => factor * (d * A.get (up j) k' - A.get (up j) k)
  let rest : Mat α n n := Mat.ofFn fun i j =>
    let (i, j) := if i < j then (i, j) else (j, i)
    A.get (up i) (up j) - A.get (up i) k * ofLast.get j - A.get (up i) k' * ofOther.get j
  (rest, ofLast, ofOther)

/-- The solutions of the system of two rows at the end of a symmetric matrix. -/
def solveTwo (A : Mat α (n + 2) (n + 2)) (b' b : α) : α × α :=
  let k := Fin.last (n + 1)
  let k' := (Fin.last n).castSucc
  let d' := A.get k' k' / A.get k' k
  let d := A.get k k / A.get k' k
  let b' := b' / A.get k' k
  let b := b / A.get k' k
  let determinant := d' * d - 1
  ((d * b' - b) / determinant, (d' * b - b') / determinant)

/-- Solve a symmetric system; `none` if some row has no pivot. -/
def solveSymmetric? [Precision α] : {n : Nat} → Mat α n n → Option (Vector α n → Vector α n)
  | 0, _ => some id
  | 1, A => if A.get 0 0 == 0 then none else some fun b => b.map (· * (1 / A.get 0 0))
  | n + 2, A => do
    let k := Fin.last (n + 1)
    let k' := (Fin.last n).castSucc
    match ← A.symmetricPivot? with
    -- pivots are moved to the end, and the rest is solved first
    | .one p =>
      let B := A.swapBoth p k
      let (rest, factors) := B.reduceOne
      let inner ← rest.solveSymmetric?
      pure fun b =>
        let b := exchange b p k
        let x := b.get k
        let xs := inner (Vector.ofFn fun i => b.get i.castSucc - factors.get i * x)
        exchange (xs.push (x * (1 / B.get k k) - dot xs factors)) p k
    | .two p =>
      let B := A.swapBoth p k'
      let (rest, ofLast, ofOther) := B.reduceTwo
      let inner ← rest.solveSymmetric?
      pure fun b =>
        let b := exchange b p k'
        let xs := inner (Vector.ofFn fun i =>
          b.get i.castSucc.castSucc - ofLast.get i * b.get k - ofOther.get i * b.get k')
        let (x', x) := B.solveTwo (b.get k') (b.get k)
        exchange ((xs.push (x' - dot xs ofOther)).push (x - dot xs ofLast)) p k'

/-- The action of a symmetric matrix. -/
def symmetricAction? [Precision α] (A : Mat α n n) : Option (InverseAction α n) :=
  A.solveSymmetric?.map fun solve => ⟨solve, solve⟩

end Mat

end Workforce
