/-!
# Matrices with their shape in the type

`Mat α m n` stores an `m` by `n` matrix row by row. Every operation is described by its effect on
the entries `A.get i j`, and two matrices are equal when their entries are.
-/

namespace Workforce

/-- An `m` by `n` matrix. -/
structure Mat (α : Type) (m n : Nat) where
  /-- The rows, from top to bottom. -/
  rows : Vector (Vector α n) m
deriving DecidableEq

namespace Mat

variable {α β γ : Type} {m n k : Nat}

theorem get_vectorOfFn (f : Fin n → α) (i : Fin n) : (Vector.ofFn f).get i = f i := by
  show (Vector.ofFn f)[i] = f i
  simp

/-- The entry in row `i` and column `j`. -/
def get (A : Mat α m n) (i : Fin m) (j : Fin n) : α := (A.rows[i])[j]

/-- The matrix with entry `f i j` in row `i` and column `j`. -/
def ofFn (f : Fin m → Fin n → α) : Mat α m n := ⟨Vector.ofFn fun i => Vector.ofFn (f i)⟩

/-- The matrix with the answers of an action that is run once for each entry, row by row. -/
def ofFnM {μ : Type → Type} [Monad μ] (f : Fin m → Fin n → μ α) : μ (Mat α m n) :=
  mk <$> Vector.ofFnM fun i => Vector.ofFnM (f i)

@[simp] theorem get_ofFn (f : Fin m → Fin n → α) (i : Fin m) (j : Fin n) :
    (ofFn f).get i j = f i j := by simp [get, ofFn]

@[ext] theorem ext {A B : Mat α m n} (h : ∀ i j, A.get i j = B.get i j) : A = B := by
  obtain ⟨A⟩ := A
  obtain ⟨B⟩ := B
  congr 1
  apply Vector.ext
  intro i hi
  apply Vector.ext
  intro j hj
  exact h ⟨i, hi⟩ ⟨j, hj⟩

@[simp] theorem ofFn_get (A : Mat α m n) : ofFn A.get = A := by ext; simp

/-- Row `i`, from left to right. -/
def row (A : Mat α m n) (i : Fin m) : List α := A.rows[i].toList

/-- Column `j`, from top to bottom. -/
def column (A : Mat α m n) (j : Fin n) : List α := (List.finRange m).map fun i => A.get i j

/-- All entries, row by row. -/
def entries (A : Mat α m n) : List α := A.rows.toList.flatMap Vector.toList

/-- Apply a function to every entry. -/
def map (f : α → β) (A : Mat α m n) : Mat β m n := ofFn fun i j => f (A.get i j)

/-- Combine two matrices entry by entry. -/
def zipWith (f : α → β → γ) (A : Mat α m n) (B : Mat β m n) : Mat γ m n :=
  ofFn fun i j => f (A.get i j) (B.get i j)

/-- Replace one entry. -/
def set (A : Mat α m n) (i : Fin m) (j : Fin n) (a : α) : Mat α m n :=
  ⟨A.rows.set i (A.rows[i].set j a)⟩

/-- Exchange rows and columns. -/
def transpose (A : Mat α m n) : Mat α n m := ofFn fun i j => A.get j i

@[simp] theorem get_map (f : α → β) (A : Mat α m n) (i : Fin m) (j : Fin n) :
    (A.map f).get i j = f (A.get i j) := by simp [map]

@[simp] theorem get_zipWith (f : α → β → γ) (A : Mat α m n) (B : Mat β m n) (i : Fin m)
    (j : Fin n) : (zipWith f A B).get i j = f (A.get i j) (B.get i j) := by simp [zipWith]

@[simp] theorem get_transpose (A : Mat α m n) (i : Fin n) (j : Fin m) :
    A.transpose.get i j = A.get j i := by simp [transpose]

@[simp] theorem transpose_transpose (A : Mat α m n) : A.transpose.transpose = A := by ext; simp

theorem get_set (A : Mat α m n) (i i' : Fin m) (j j' : Fin n) (a : α) :
    (A.set i j a).get i' j' = if i' = i ∧ j' = j then a else A.get i' j' := by
  simp only [get, set, Fin.getElem_fin, Vector.getElem_set]
  by_cases hi : i = i'
  · subst hi
    by_cases hj : j = j'
    · simp [hj]
    · simp [Fin.val_inj, hj, Ne.symm hj]
  · simp [Fin.val_inj, hi, Ne.symm hi]

end Mat

end Workforce
