import Workforce.Inverse.Factorization

/-!
# Condition

A system counts as regular to working precision when its reciprocal condition number, in the norm
of the largest column sum, is not too small. The norm of the inverse is not computed but estimated
from below: the matrix is factored as its structure allows, and systems are solved for right hand
sides that are likely to have large solutions.
-/

namespace Workforce

variable {α : Type} {m n : Nat}
variable [Zero α] [One α] [Add α] [Sub α] [Mul α] [Div α] [Neg α] [BEq α] [LT α] [DecidableLT α]

/-! ### Estimates -/

/-- The sum of the absolute values of the entries of a vector. -/
def absoluteSum (x : Vector α n) : α := sumFin n fun i => magnitude (x.get i)

/-- The number `n` as an entry. -/
def countOf (n : Nat) : α := sumFin n fun _ => 1

/-- The vector with a one in place `j` and zeros elsewhere. -/
def unitVector (j : Fin n) : Vector α n := Vector.ofFn fun i => if i = j then 1 else 0

/-- Which entries of a vector are not negative. -/
def signs (x : Vector α n) : Vector Bool n := x.map fun a => !decide (a < 0)

/-- Signs as a vector of ones, with a minus in front of some. -/
def signVector (s : Vector Bool n) : Vector α n := s.map fun b => if b then 1 else -1

/-- The first place of an entry with the largest absolute value, `first` being the first of all. -/
def largestFrom (first : Fin n) (x : Vector α n) : Fin n :=
  (List.finRange n).foldl
    (fun p i => if magnitude (x.get p) < magnitude (x.get i) then i else p) first

/-- Entries of growing size and alternating sign. -/
def alternating (n : Nat) : Vector α n :=
  Vector.ofFn fun i =>
    let a : α := 1 + countOf i.val / countOf (n - 1)
    if i.val % 2 = 0 then a else -a

namespace InverseAction

/-- Improve an estimate by the column of the inverse with number `j`, and go on to another column
as long as the estimate grows. -/
def improve (S : InverseAction α n) (first : Fin n) :
    (fuel : Nat) → (estimate : α) → (s : Vector Bool n) → (j : Fin n) → α
  | 0, estimate, _, _ => estimate
  | fuel + 1, estimate, s, j =>
    let x := S.apply (unitVector j)
    let s' := signs x
    if s' = s ∨ !decide (estimate < absoluteSum x) then absoluteSum x
    else
      let y := S.applyTransposed (signVector s')
      let j' := largestFrom first y
      if y.get j == magnitude (y.get j') then absoluteSum x
      else improve S first fuel (absoluteSum x) s' j'

/-- An estimate of the norm of an inverse. Four columns at most are looked at. -/
def normEstimate (S : InverseAction α n) (first : Fin n) : α :=
  let x := S.apply (Vector.ofFn fun _ => 1 / countOf n)
  let j := largestFrom first (S.applyTransposed (signVector (signs x)))
  let ofColumns := S.improve first 4 (absoluteSum x) (signs x) j
  let ofAlternating := (1 + 1) * (absoluteSum (S.apply (alternating n)) / countOf (3 * n))
  larger ofColumns ofAlternating

end InverseAction

/-! ### Structure -/

namespace Mat

/-- Whether all entries in some places are zero. -/
def vanishes (A : Mat α m n) (places : Fin m → Fin n → Bool) : Bool :=
  (List.finRange m).all fun i => (List.finRange n).all fun j => !places i j || A.get i j == 0

/-- Whether there is nothing below the diagonal. -/
def isUpper (A : Mat α n n) : Bool := A.vanishes fun i j => j < i

/-- Whether there is nothing above the diagonal. -/
def isLower (A : Mat α n n) : Bool := A.vanishes fun i j => i < j

/-- Whether there is nothing apart from the diagonal and the two lines beside it. -/
def isTridiagonal (A : Mat α n n) : Bool := A.vanishes fun i j => i.val + 1 < j || j.val + 1 < i

/-- Whether a matrix equals its transpose. -/
def isSymmetric (A : Mat α n n) : Bool :=
  (List.finRange n).all fun i => (List.finRange n).all fun j => A.get i j == A.get j i

/-- Whether no entry of the diagonal is zero. -/
def hasPivots (A : Mat α n n) : Bool := (List.finRange n).all fun i => !(A.get i i == 0)

/-- The action of the inverse of a matrix, as its structure allows. The rows of a general matrix
stay reordered, which does not change the norm of its inverse. -/
def inverseAction? [Precision α] (A : Mat α n n) : Option (InverseAction α n) :=
  if A.isUpper then if A.hasPivots then some A.upperAction else none
  else if A.isLower then if A.hasPivots then some A.lowerAction else none
  else if 3 < n ∧ A.isTridiagonal then A.factor?.map Factors.action
  else if A.isSymmetric then A.symmetricAction?
  else A.factor?.map Factors.reorderedAction

/-- The largest sum of absolute values over the columns. -/
def columnNorm (A : Mat α m n) : α :=
  peak ((List.finRange n).map fun j => sumFin m fun i => magnitude (A.get i j))

/-- Check that a system is regular to working precision. A single number only has to differ from
zero, and so has a diagonal matrix whose entries are of one size. -/
def checkRegular [Precision α] (A : Mat α n n) : Except SystemError Unit :=
  if h : 1 < n then
    if A.isUpper && A.isLower then .ok ()
    else
      match A.inverseAction? with
      | none => .error (.singular "a factor has no pivot.")
      | some S =>
        let reciprocal := 1 / S.normEstimate ⟨0, by omega⟩ / A.columnNorm
        if isProper reciprocal && !decide (reciprocal < Precision.epsilon) then .ok ()
        else .error (.illConditioned "the condition number is too large.")
  else .ok ()

/-- The inverse of a matrix that is regular to working precision. -/
def solveIdentity [Precision α] (A : Mat α n n) : Except SystemError (Mat α n n) := do
  A.checkRegular
  A.eliminate

end Mat

end Workforce
