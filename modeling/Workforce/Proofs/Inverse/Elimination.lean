import Mathlib.Algebra.BigOperators.Field
import Mathlib.LinearAlgebra.Matrix.NonsingularInverse
import Workforce.Inverse.Elimination
import Workforce.Proofs.Mat.Matrix
import Workforce.Proofs.Number.Exact

/-!
# Elimination in exact arithmetic

Row operations keep the product of the right hand side with the matrix equal to the left hand side,
and they lose no solution. In an ordered field elimination therefore finds the inverse of every
matrix that has one (`mul_of_eliminate_eq_ok`), and a column without a pivot gives a vector that
the matrix sends to zero (`exists_mulVec_eq_zero_of_eliminate_eq_error`).
-/

namespace Workforce

open Matrix

variable {K : Type} [Field K] {m n : ℕ}

/-! ### Row operations -/

namespace Mat

lemma swapRows_mulVec (A : Mat K m n) (p q : Fin m) (v : Fin n → K) (i : Fin m) :
    ((A.swapRows p q).toMatrix *ᵥ v) i = (A.toMatrix *ᵥ v) (Equiv.swap p q i) := by
  simp [Matrix.mulVec, dotProduct, Equiv.swap_apply_def]

lemma subtractRow_mulVec (A : Mat K m n) (k : Fin m) (factor : Vector K m) (v : Fin n → K)
    (i : Fin m) :
    ((A.subtractRow k factor).toMatrix *ᵥ v) i =
      if i = k then (A.toMatrix *ᵥ v) k
      else (A.toMatrix *ᵥ v) i - factor.get i * (A.toMatrix *ᵥ v) k := by
  split_ifs with h
  · simp [Matrix.mulVec, dotProduct, h]
  · simp [Matrix.mulVec, dotProduct, h, sub_mul, Finset.mul_sum, mul_assoc]

/-! ### Pivots -/

section Pivots

variable [LinearOrder K] [IsStrictOrderedRing K]

/-- The row that a search for a pivot ends with is not above row `k` and has an entry at least as
large as where the search started and as the rows below row `k` that it looked at. -/
private lemma foldl_pivot_spec (f : Fin n → K) (k : Fin n) (rows : List (Fin n)) (p : Fin n)
    (hp : k ≤ p) :
    let q := rows.foldl (fun p i => if k < i ∧ magnitude (f p) < magnitude (f i) then i else p) p
    k ≤ q ∧ |f p| ≤ |f q| ∧ ∀ i ∈ rows, k < i → |f i| ≤ |f q| := by
  induction rows generalizing p with
  | nil => simpa using hp
  | cons i rows ih =>
    simp only [List.foldl_cons, List.forall_mem_cons, magnitude_eq_abs] at ih ⊢
    split_ifs with h
    · obtain ⟨hq, hi, hrows⟩ := ih i h.1.le
      exact ⟨hq, h.2.le.trans hi, fun _ => hi, hrows⟩
    · obtain ⟨hq, hi, hrows⟩ := ih p hp
      refine ⟨hq, hi, fun hk => ?_, hrows⟩
      exact (not_lt.mp fun hlt => h ⟨hk, hlt⟩).trans hi

/-- The pivot of column `k` is not above row `k`, and its entry is at least as large as the others
from row `k` on. -/
lemma pivotRow_spec (A : Mat K n n) (k : Fin n) :
    k ≤ A.pivotRow k ∧ ∀ i, k ≤ i → |A.get i k| ≤ |A.get (A.pivotRow k) k| := by
  obtain ⟨hq, hk, hrows⟩ := foldl_pivot_spec (fun i => A.get i k) k (List.finRange n) k le_rfl
  refine ⟨hq, fun i hi => ?_⟩
  rcases hi.eq_or_lt with rfl | hlt
  · exact hk
  · exact hrows i (List.mem_finRange i) hlt

end Pivots

end Mat

/-! ### Steps of elimination -/

namespace Augmented

variable {A : Mat K n n} {S S' : Augmented K n}

/-- The system after the first `k` columns of `A` are cleared. -/
structure Reduced (A : Mat K n n) (k : ℕ) (S : Augmented K n) : Prop where
  /-- The right hand side collects the row operations. -/
  right_mulVec : ∀ v, S.right.toMatrix *ᵥ (A.toMatrix *ᵥ v) = S.left.toMatrix *ᵥ v
  /-- Row operations lose no solution. -/
  kernel : ∀ v, S.left.toMatrix *ᵥ v = 0 → A.toMatrix *ᵥ v = 0
  cleared : ∀ i j : Fin n, j.val < k → i ≠ j → S.left.get i j = 0
  pivot_ne_zero : ∀ j : Fin n, j.val < k → S.left.get j j ≠ 0

lemma reduced_start (A : Mat K n n) : Reduced A 0 ⟨A, Mat.identity⟩ where
  right_mulVec v := by simp
  kernel v h := h
  cleared i j hj := absurd hj j.val.not_lt_zero
  pivot_ne_zero j hj := absurd hj j.val.not_lt_zero

/-- Exchanging two rows that are not used yet keeps the system reduced. -/
lemma Reduced.swap {k : ℕ} (h : Reduced A k S) {p q : Fin n} (hp : k ≤ p) (hq : k ≤ q) :
    Reduced A k ⟨S.left.swapRows p q, S.right.swapRows p q⟩ where
  right_mulVec v := by
    ext i
    rw [Mat.swapRows_mulVec, Mat.swapRows_mulVec, h.right_mulVec]
  kernel v hv := by
    refine h.kernel v (funext fun i => ?_)
    have hi := congrFun hv (Equiv.swap p q i)
    rwa [Mat.swapRows_mulVec, Equiv.swap_apply_self] at hi
  cleared i j hj hij := by
    -- the columns that are cleared belong to rows before `k`, which are not moved
    have hjp : j ≠ p := by omega
    have hjq : j ≠ q := by omega
    rw [Mat.get_swapRows, ← Equiv.swap_apply_def]
    refine h.cleared _ j hj fun heq => hij ?_
    rw [← Equiv.swap_apply_of_ne_of_ne hjp hjq] at heq
    exact (Equiv.swap p q).injective heq
  pivot_ne_zero j hj := by
    have hjp : j ≠ p := by omega
    have hjq : j ≠ q := by omega
    rw [Mat.get_swapRows, if_neg hjp, if_neg hjq]
    exact h.pivot_ne_zero j hj

/-- Clearing column `k` with a pivot in row `k` goes one column further. -/
lemma Reduced.clear {k : Fin n} (h : Reduced A k S) (hk : S.left.get k k ≠ 0) :
    Reduced A (k + 1) (S.clear k) where
  right_mulVec v := by
    ext i
    simp only [Augmented.clear, Mat.subtractRow_mulVec, h.right_mulVec]
  kernel v hv := by
    have hrow : ∀ i, ((S.clear k).left.toMatrix *ᵥ v) i = 0 := fun i => congrFun hv i
    simp only [Augmented.clear, Mat.subtractRow_mulVec] at hrow
    have hkv : (S.left.toMatrix *ᵥ v) k = 0 := by simpa using hrow k
    refine h.kernel v (funext fun i => ?_)
    have hi := hrow i
    split_ifs at hi with heq
    · exact heq ▸ hkv
    · simpa [hkv] using hi
  cleared i j hj hij := by
    simp only [Augmented.clear, Mat.get_subtractRow, Mat.get_vectorOfFn]
    rcases Nat.lt_succ_iff_lt_or_eq.mp hj with hlt | heq
    · -- the columns before `k` are zero in row `k` as well
      rw [h.cleared i j hlt hij, h.cleared k j hlt (by omega)]
      simp
    · obtain rfl : j = k := Fin.ext heq
      rw [if_neg hij, div_mul_cancel₀ _ hk, sub_self]
  pivot_ne_zero j hj := by
    simp only [Augmented.clear, Mat.get_subtractRow]
    rcases Nat.lt_succ_iff_lt_or_eq.mp hj with hlt | heq
    · rw [h.cleared k j hlt (by omega)]
      simpa using h.pivot_ne_zero j hlt
    · obtain rfl : j = k := Fin.ext heq
      simpa using hk

/-- A column that is zero from row `k` on is a combination of the columns before it, which gives a
vector that `A` sends to zero. -/
lemma Reduced.exists_mulVec_eq_zero {k : Fin n} (h : Reduced A k S)
    (hzero : ∀ i, k ≤ i → S.left.get i k = 0) : ∃ v, v ≠ 0 ∧ A.toMatrix *ᵥ v = 0 := by
  -- the columns before have only their pivots left, so each coefficient is read off one row
  let w : Fin n → K := fun j => if j < k then S.left.get j k / S.left.get j j else 0
  have hw : S.left.toMatrix *ᵥ w = fun i => S.left.get i k := by
    ext i
    have hterm : ∀ j ∈ Finset.univ, j ≠ i → S.left.get i j * w j = 0 := by
      intro j _ hji
      by_cases hj : j < k
      · simp [h.cleared i j hj hji.symm]
      · simp [w, hj]
    have hsum : (S.left.toMatrix *ᵥ w) i = S.left.get i i * w i := by
      simpa [Matrix.mulVec, dotProduct] using Finset.sum_eq_single i hterm (by simp)
    rw [hsum]
    by_cases hi : i < k
    · simp only [w, if_pos hi]
      exact mul_div_cancel₀ _ (h.pivot_ne_zero i hi)
    · simp [w, hi, hzero i (not_lt.mp hi)]
  refine ⟨Pi.single k 1 - w, fun hv => ?_, h.kernel _ ?_⟩
  · have hk := congrFun hv k
    simp [w] at hk
  · rw [Matrix.mulVec_sub, hw, Matrix.mulVec_single_one]
    exact sub_self _

lemma quotient_mulVec (S : Augmented K n) (v : Fin n → K) (i : Fin n) :
    (S.quotient.toMatrix *ᵥ v) i = (S.right.toMatrix *ᵥ v) i / S.left.get i i := by
  simp [quotient, Matrix.mulVec, dotProduct, Finset.sum_div, div_mul_eq_mul_div]

/-- Dividing every row of a reduced system by its pivot solves it. -/
lemma Reduced.quotient_mul (h : Reduced A n S) : S.quotient.toMatrix * A.toMatrix = 1 := by
  ext i j
  calc (S.quotient.toMatrix * A.toMatrix) i j
      = (S.quotient.toMatrix *ᵥ (A.toMatrix *ᵥ Pi.single j 1)) i := by
        rw [Matrix.mulVec_mulVec, Matrix.mulVec_single_one, Matrix.col_apply]
    _ = S.left.get i j / S.left.get i i := by
        rw [quotient_mulVec, h.right_mulVec, Matrix.mulVec_single_one, Matrix.col_apply,
          Mat.toMatrix_apply]
    _ = (1 : Matrix (Fin n) (Fin n) K) i j := by
        rcases eq_or_ne i j with rfl | hij
        · rw [div_self (h.pivot_ne_zero i i.isLt), Matrix.one_apply_eq]
        · rw [h.cleared i j j.isLt hij, zero_div, Matrix.one_apply_ne hij]

variable [LinearOrder K] [IsStrictOrderedRing K]

/-- A step with a pivot goes one column further. -/
lemma Reduced.step {k : Fin n} (h : Reduced A k S) (hS : S.step k = some S') :
    Reduced A (k + 1) S' := by
  have hpivot := Mat.pivotRow_spec S.left k
  rw [Augmented.step] at hS
  split_ifs at hS with hzero
  cases hS
  refine (h.swap le_rfl hpivot.1).clear ?_
  simpa using hzero

/-- A step without a pivot has come to a column that depends on those before it. -/
lemma Reduced.exists_of_step_eq_none {k : Fin n} (h : Reduced A k S) (hS : S.step k = none) :
    ∃ v, v ≠ 0 ∧ A.toMatrix *ᵥ v = 0 := by
  have hpivot := Mat.pivotRow_spec S.left k
  have hzero : S.left.get (S.left.pivotRow k) k = 0 := by simpa [Augmented.step] using hS
  refine h.exists_mulVec_eq_zero fun i hi => ?_
  simpa [hzero] using hpivot.2 i hi

/-- Elimination of the columns from column `k` on ends reduced, or without a pivot. -/
lemma Reduced.foldlM {k : ℕ} (hk : k ≤ n) (h : Reduced A k S) :
    (∃ S', ((List.finRange n).drop k).foldlM Augmented.step S = some S' ∧ Reduced A n S') ∨
      ((List.finRange n).drop k).foldlM Augmented.step S = none ∧
        ∃ v, v ≠ 0 ∧ A.toMatrix *ᵥ v = 0 := by
  induction hd : n - k generalizing k S with
  | zero =>
    obtain rfl : k = n := by omega
    left
    exact ⟨S, by rw [List.drop_of_length_le (by simp)]; rfl, h⟩
  | succ d ih =>
    have hlt : k < n := by omega
    rw [List.drop_eq_getElem_cons (by simpa using hlt), List.foldlM_cons]
    simp only [List.getElem_finRange, Fin.cast_mk]
    cases hS : S.step ⟨k, hlt⟩ with
    | none => exact .inr ⟨rfl, Reduced.exists_of_step_eq_none (k := ⟨k, hlt⟩) h hS⟩
    | some S' => exact ih (k := k + 1) hlt (Reduced.step (k := ⟨k, hlt⟩) h hS) (by omega)

end Augmented

namespace Mat

variable [LinearOrder K] [IsStrictOrderedRing K] {A X : Mat K n n}

/-- What elimination finds is an inverse. -/
theorem mul_of_eliminate_eq_ok (h : A.eliminate = .ok X) :
    A.toMatrix * X.toMatrix = 1 := by
  rcases (Augmented.reduced_start A).foldlM n.zero_le with ⟨S, hS, hred⟩ | ⟨hS, -⟩
  · rw [List.drop_zero] at hS
    obtain rfl : S.quotient = X := by simpa [eliminate, hS] using h
    exact mul_eq_one_comm.mp hred.quotient_mul
  · rw [List.drop_zero] at hS
    simp [eliminate, hS] at h

/-- A matrix that elimination finds no inverse of sends some vector to zero. -/
theorem exists_mulVec_eq_zero_of_eliminate_eq_error {e : SystemError} (h : A.eliminate = .error e) :
    ∃ v, v ≠ 0 ∧ A.toMatrix *ᵥ v = 0 := by
  rcases (Augmented.reduced_start A).foldlM n.zero_le with ⟨S, hS, -⟩ | ⟨-, hv⟩
  · rw [List.drop_zero] at hS
    simp [eliminate, hS] at h
  · exact hv

end Mat

end Workforce
