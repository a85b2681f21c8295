import Workforce.Mat.Basic

/-!
# Arithmetic of matrices

Sums, differences, negation and scaling work entry by entry. An entry of a product is a sum from
left to right. The squared norm adds the squares of all entries: few of them from left to right,
many of them in eight interleaved sums over halves of the list.
-/

namespace Workforce

variable {α : Type}

/-- The sum of `f 0, …, f (n - 1)`, from left to right. -/
def sumFin [Zero α] [Add α] (n : Nat) (f : Fin n → α) : α :=
  (List.finRange n).foldl (fun s i => s + f i) 0

@[simp] theorem sumFin_zero [Zero α] [Add α] (f : Fin 0 → α) : sumFin 0 f = 0 := rfl

/-- Eight sums, each over every eighth element, while eight elements are left. -/
def sumEights [Add α] (s₀ s₁ s₂ s₃ s₄ s₅ s₆ s₇ : α) : List α → α
  | a₀ :: a₁ :: a₂ :: a₃ :: a₄ :: a₅ :: a₆ :: a₇ :: rest =>
    sumEights (s₀ + a₀) (s₁ + a₁) (s₂ + a₂) (s₃ + a₃) (s₄ + a₄) (s₅ + a₅) (s₆ + a₆) (s₇ + a₇) rest
  | rest => rest.foldl (· + ·) (((s₀ + s₁) + (s₂ + s₃)) + ((s₄ + s₅) + (s₆ + s₇)))

/-- The sum of at most 128 elements: from left to right if fewer than eight, otherwise eight
interleaved sums that are added pairwise, and then the elements left over. -/
def sumBlock [Zero α] [Add α] : List α → α
  | a₀ :: a₁ :: a₂ :: a₃ :: a₄ :: a₅ :: a₆ :: a₇ :: rest =>
    sumEights a₀ a₁ a₂ a₃ a₄ a₅ a₆ a₇ rest
  | few => few.foldl (· + ·) 0

/-- The sum of a list, whose halves are added separately while they are long. -/
def sumPairwise [Zero α] [Add α] (as : List α) : α :=
  if as.length ≤ 128 then sumBlock as
  else
    -- the first part has a multiple of eight elements
    let half := as.length / 2 / 8 * 8
    sumPairwise (as.take half) + sumPairwise (as.drop half)
termination_by as.length
decreasing_by
  · simp only [List.length_take]; omega
  · simp only [List.length_drop]; omega

namespace Mat

variable {m n k : Nat}

/-- The matrix of zeros. -/
def zero [Zero α] : Mat α m n := ofFn fun _ _ => 0

/-- The identity matrix. -/
def identity [Zero α] [One α] : Mat α n n := ofFn fun i j => if i = j then 1 else 0

/-- The sum of two matrices. -/
def add [Add α] (A B : Mat α m n) : Mat α m n := zipWith (· + ·) A B

/-- The difference of two matrices. -/
def sub [Sub α] (A B : Mat α m n) : Mat α m n := zipWith (· - ·) A B

/-- The negative of a matrix. -/
def neg [Neg α] (A : Mat α m n) : Mat α m n := A.map (- ·)

/-- A multiple of a matrix. -/
def scale [Mul α] (A : Mat α m n) (k : α) : Mat α m n := A.map (· * k)

/-- The product of two matrices. -/
def mul [Zero α] [Add α] [Mul α] (A : Mat α m k) (B : Mat α k n) : Mat α m n :=
  ofFn fun i j => sumFin k fun l => A.get i l * B.get l j

/-- The sum of the squares of all entries. -/
def normSquared [Zero α] [Add α] [Mul α] (A : Mat α m n) : α :=
  sumPairwise (A.entries.map fun a => a * a)

instance [Add α] : Add (Mat α m n) := ⟨add⟩

instance [Sub α] : Sub (Mat α m n) := ⟨sub⟩

instance [Neg α] : Neg (Mat α m n) := ⟨neg⟩

instance [Zero α] [Add α] [Mul α] : HMul (Mat α m k) (Mat α k n) (Mat α m n) := ⟨mul⟩

@[simp] theorem get_zero [Zero α] (i : Fin m) (j : Fin n) : (zero : Mat α m n).get i j = 0 := by
  simp [zero]

@[simp] theorem get_identity [Zero α] [One α] (i j : Fin n) :
    (identity : Mat α n n).get i j = if i = j then 1 else 0 := by simp [identity]

@[simp] theorem get_add [Add α] (A B : Mat α m n) (i : Fin m) (j : Fin n) :
    (A + B).get i j = A.get i j + B.get i j := get_zipWith ..

@[simp] theorem get_sub [Sub α] (A B : Mat α m n) (i : Fin m) (j : Fin n) :
    (A - B).get i j = A.get i j - B.get i j := get_zipWith ..

@[simp] theorem get_neg [Neg α] (A : Mat α m n) (i : Fin m) (j : Fin n) :
    (-A).get i j = -A.get i j := get_map ..

@[simp] theorem get_scale [Mul α] (A : Mat α m n) (k : α) (i : Fin m) (j : Fin n) :
    (A.scale k).get i j = A.get i j * k := get_map ..

@[simp] theorem get_mul [Zero α] [Add α] [Mul α] (A : Mat α m k) (B : Mat α k n) (i : Fin m)
    (j : Fin n) : (A * B).get i j = sumFin k fun l => A.get i l * B.get l j := get_ofFn ..

end Mat

end Workforce
