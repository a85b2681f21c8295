import Workforce.Grid.Basic

/-!
# The flow inverse

Positive entries of a row are read as what the row contributes to its columns, negative entries
of a column as what other rows consume of it. A unit of flow enters a row and is split evenly over
the positive entries; what negative entries in those columns absorb is pushed back through their
rows, for a bounded number of levels. What the columns receive from a unit that enters row `r` is
column `r` of the approximate inverse.

Every step of the flow is an addition to one cell, and the additions have a fixed order: depth
first, columns from left to right, rows from top to bottom.
-/

namespace Workforce

variable {α : Type} {m n : Nat}

namespace Flow

/-- The sum of the positive numbers of a list, from left to right. -/
def positiveSum [Zero α] [Add α] [LT α] [DecidableLT α] (as : List α) : α :=
  as.foldl (fun s a => if 0 < a then s + a else s) 0

theorem get_replicate (a : α) (c : Fin n) : (Vector.replicate n a).get c = a := by
  show (Vector.replicate n a)[c] = a
  simp

section Deposit

variable [Add α]

/-- Add a share to the cell of a column. -/
def deposit (cells : Vector α n) (addition : Fin n × α) : Vector α n :=
  cells.set addition.1 (cells[addition.1] + addition.2)

theorem get_deposit_eq_ite (cells : Vector α n) (addition : Fin n × α) (c : Fin n) :
    (deposit cells addition).get c =
      if addition.1 = c then cells.get c + addition.2 else cells.get c := by
  show (deposit cells addition)[c] = if _ then cells[c] + _ else cells[c]
  by_cases h : addition.1 = c
  · simp [deposit, h]
  · simp [deposit, h, Fin.val_inj]

/-- A cell gathers what is added to its column, one after the other. -/
theorem get_foldl_deposit_eq_foldl (cells : Vector α n) (as : List (Fin n × α))
    (c : Fin n) : (as.foldl deposit cells).get c =
      (as.filter fun a => a.1 = c).foldl (fun s a => s + a.2) (cells.get c) := by
  induction as generalizing cells with
  | nil => rfl
  | cons a as ih =>
    rw [List.foldl_cons, ih, get_deposit_eq_ite, List.filter_cons]
    split <;> simp_all

end Deposit

variable [Zero α] [Add α] [Mul α] [Div α] [Neg α] [LT α] [LE α] [DecidableLT α] [DecidableLE α]

/-- The additions caused by a flow `f` that enters row `r` and may be pushed back `levels` times:
each names a column and the share that it receives. -/
def additions (A : Mat α m n) : (levels : Nat) → (r : Fin m) → (f : α) → List (Fin n × α)
  | levels, r, f =>
    let total := positiveSum (A.row r)
    -- a row without positive entries passes nothing on
    if total ≤ 0 then []
    else
      let share := f / total
      (List.finRange n).flatMap fun c =>
        if A.get r c ≤ 0 then []
        else
          (c, share) ::
            match levels with
            | 0 => []
            | levels + 1 =>
              (List.finRange m).flatMap fun q =>
                if A.get q c < 0 then additions A levels q (-A.get q c * share) else []

/-- What the columns receive from a unit of flow that enters row `r`. -/
def received [One α] (A : Mat α m n) (levels : Nat) (r : Fin m) : Vector α n :=
  (additions A levels r 1).foldl deposit (Vector.replicate n 0)

end Flow

/-- The approximate inverse that follows the flow for `levels` levels of feedback. -/
def Mat.flowInverse [Zero α] [One α] [Add α] [Mul α] [Div α] [Neg α] [LT α] [LE α] [DecidableLT α]
    [DecidableLE α] (A : Mat α m n) (levels : Nat) : Mat α n m :=
  let columns := Vector.ofFn fun r => Flow.received A levels r
  Mat.ofFn fun c r => (columns.get r).get c

@[simp] theorem Mat.get_flowInverse [Zero α] [One α] [Add α] [Mul α] [Div α] [Neg α] [LT α] [LE α]
    [DecidableLT α] [DecidableLE α] (A : Mat α m n) (levels : Nat) (c : Fin n) (r : Fin m) :
    (A.flowInverse levels).get c r = (Flow.received A levels r).get c := by
  simp only [flowInverse, get_ofFn, get_vectorOfFn]

end Workforce
