import Mathlib
import Workforce.Flow
import Workforce.Proofs.Mat.Matrix

/-!
# The flow inverse as a series

In exact arithmetic the flow is linear in the unit that enters, so its levels are powers of a
matrix. `shares A` says what columns receive directly from a unit that enters a row, and
`feedback A` what is pushed back into other rows. The flow inverse is the product of `shares A`
with the sum of the first powers of `feedback A`.
-/

namespace Workforce

open Matrix

variable {K : Type} [Field K] {k m n : ℕ}

namespace Flow

/-! ### Additions -/

section Additions

/-- What additions add up to in column `c`. -/
def deposited (c : Fin n) (as : List (Fin n × K)) : K :=
  (as.map fun a => if a.1 = c then a.2 else 0).sum

@[simp] lemma deposited_nil (c : Fin n) : deposited c ([] : List (Fin n × K)) = 0 := rfl

@[simp] lemma deposited_cons (c : Fin n) (a : Fin n × K) (as : List (Fin n × K)) :
    deposited c (a :: as) = (if a.1 = c then a.2 else 0) + deposited c as := by
  simp [deposited]

lemma deposited_flatMap (c : Fin n) (f : Fin k → List (Fin n × K)) :
    deposited c ((List.finRange k).flatMap f) = ∑ i, deposited c (f i) := by
  rw [deposited, List.map_flatMap, List.flatMap_def, List.sum_flatten, List.map_map,
    Fin.sum_univ_def]
  rfl

lemma get_deposit (cells : Vector K n) (a : Fin n × K) (c : Fin n) :
    (deposit cells a).get c = cells.get c + if a.1 = c then a.2 else 0 := by
  rw [get_deposit_eq_ite]
  split_ifs
  · rfl
  · rw [add_zero]

lemma get_foldl_deposit (cells : Vector K n) (as : List (Fin n × K)) (c : Fin n) :
    (as.foldl deposit cells).get c = cells.get c + deposited c as := by
  induction as generalizing cells with
  | nil => simp
  | cons a as ih => rw [List.foldl_cons, ih, get_deposit, deposited_cons, add_assoc]

end Additions

variable [LinearOrder K]

/-! ### The two matrices -/

/-- The sum of the positive entries of row `r`. -/
def outflow (A : Mat K m n) (r : Fin m) : K := ∑ c with 0 < A.get r c, A.get r c

/-- What column `c` receives directly from a unit that enters row `r`. -/
def shares (A : Mat K m n) : Matrix (Fin n) (Fin m) K :=
  of fun c r => if 0 < A.get r c then 1 / outflow A r else 0

/-- What is pushed back into row `q` of a unit that enters row `r`. -/
def feedback (A : Mat K m n) : Matrix (Fin m) (Fin m) K :=
  of fun q r => ∑ c with 0 < A.get r c ∧ A.get q c < 0, -A.get q c / outflow A r

variable (A : Mat K m n)

lemma shares_apply (c : Fin n) (r : Fin m) :
    shares A c r = if 0 < A.get r c then 1 / outflow A r else 0 := rfl

lemma feedback_apply (q r : Fin m) :
    feedback A q r = ∑ c with 0 < A.get r c ∧ A.get q c < 0, -A.get q c / outflow A r := rfl

lemma positiveSum_eq_sum (as : List K) :
    positiveSum as = (as.map fun a => if 0 < a then a else 0).sum := by
  have h (as : List K) (s : K) : as.foldl (fun s a => if 0 < a then s + a else s) s =
      s + (as.map fun a => if 0 < a then a else 0).sum := by
    induction as generalizing s with
    | nil => simp
    | cons a as ih =>
      rw [List.foldl_cons, ih, List.map_cons, List.sum_cons]
      split_ifs
      · rw [add_assoc]
      · rw [zero_add]
  rw [positiveSum, h, zero_add]

lemma positiveSum_row (r : Fin m) : positiveSum (A.row r) = outflow A r := by
  rw [positiveSum_eq_sum, Mat.row_eq_map, List.map_map, outflow, Finset.sum_filter,
    Fin.sum_univ_def]
  rfl

/-- A row without positive entries passes nothing on. -/
lemma column_eq_zero {r : Fin m} (h : ∀ c, A.get r c ≤ 0) :
    (∀ c, shares A c r = 0) ∧ ∀ q, feedback A q r = 0 := by
  constructor
  · intro c
    rw [shares_apply, if_neg (h c).not_gt]
  · intro q
    rw [feedback_apply, Finset.filter_false_of_mem, Finset.sum_empty]
    intro c _ hc
    exact (h c).not_gt hc.1

/-- The series of direct shares and of what comes back within a number of levels. -/
def series (levels : ℕ) : Matrix (Fin n) (Fin m) K :=
  shares A * ∑ k ∈ Finset.range (levels + 1), feedback A ^ k

lemma series_zero : series A 0 = shares A := by simp [series]

lemma series_succ (levels : ℕ) :
    series A (levels + 1) = shares A + series A levels * feedback A := by
  rw [series, Finset.sum_range_succ', pow_zero, Matrix.mul_add, Matrix.mul_one, series,
    Matrix.mul_assoc, Finset.sum_mul, add_comm]
  simp only [pow_succ]

/-! ### The flow -/

variable {A : Mat K m n}

/-- A row adds its share to each of its columns, and then what comes back from there. -/
lemma deposited_shared (r : Fin m) (f : K) (c : Fin n) (back : Fin n → List (Fin n × K)) :
    deposited c ((List.finRange n).flatMap fun d =>
        if A.get r d ≤ 0 then [] else (d, f / outflow A r) :: back d) =
      f * shares A c r + ∑ d with 0 < A.get r d, deposited c (back d) := by
  have hcolumn (d : Fin n) :
      deposited c (if A.get r d ≤ 0 then [] else (d, f / outflow A r) :: back d) =
        (if d = c then f * shares A c r else 0) +
          if 0 < A.get r d then deposited c (back d) else 0 := by
    by_cases hd : A.get r d ≤ 0
    · rw [if_pos hd, if_neg hd.not_gt, deposited_nil, add_zero]
      split_ifs with hdc
      · rw [shares_apply, if_neg (hdc ▸ hd).not_gt, mul_zero]
      · rfl
    · rw [if_neg hd, if_pos (not_le.mp hd), deposited_cons]
      split_ifs with hdc
      · rw [← hdc, shares_apply, if_pos (not_le.mp hd), mul_one_div]
      · rfl
  rw [deposited_flatMap, Finset.sum_congr rfl fun d _ => hcolumn d, Finset.sum_add_distrib,
    Finset.sum_ite_eq' Finset.univ c, if_pos (Finset.mem_univ c), Finset.sum_filter]

/-- What comes back through the rows that hold negative entries is `feedback`. -/
lemma sum_pushed_back (levels : ℕ) (r : Fin m) (f : K) (c : Fin n) :
    ∑ d with 0 < A.get r d, ∑ q, (if A.get q d < 0 then
        -A.get q d * (f / outflow A r) * series A levels c q else 0) =
      f * (series A levels * feedback A) c r := by
  rw [Matrix.mul_apply, Finset.mul_sum, Finset.sum_comm]
  refine Finset.sum_congr rfl fun q _ => ?_
  rw [feedback_apply, ← Finset.sum_filter, Finset.filter_filter, Finset.mul_sum, Finset.mul_sum]
  refine Finset.sum_congr rfl fun d _ => ?_
  ring

variable [IsStrictOrderedRing K]

lemma outflow_pos {r : Fin m} {c : Fin n} (h : 0 < A.get r c) : 0 < outflow A r := by
  refine Finset.sum_pos (fun c hc => (Finset.mem_filter.mp hc).2) ⟨c, ?_⟩
  exact Finset.mem_filter.mpr ⟨Finset.mem_univ c, h⟩

lemma outflow_nonpos_iff {r : Fin m} : outflow A r ≤ 0 ↔ ∀ c, A.get r c ≤ 0 := by
  constructor
  · intro h c
    by_contra hc
    exact (outflow_pos (not_le.mp hc)).not_ge h
  · intro h
    exact Finset.sum_nonpos fun c _ => h c

/-- A flow adds to columns what its row shares, and what comes back. -/
lemma deposited_additions (levels : ℕ) (r : Fin m) (f : K) (c : Fin n) :
    deposited c (additions A levels r f) = f * series A levels c r := by
  induction levels generalizing r f with
  | zero =>
    rw [additions, positiveSum_row, series_zero]
    -- a row without positive entries ends the flow, and its column of shares is zero
    split_ifs with h
    · rw [(column_eq_zero A (outflow_nonpos_iff.mp h)).1, mul_zero, deposited_nil]
    · rw [deposited_shared r f c fun _ => []]
      simp
  | succ levels ih =>
    rw [additions, positiveSum_row, series_succ, Matrix.add_apply, mul_add]
    split_ifs with h
    · obtain ⟨hshares, hfeedback⟩ := column_eq_zero A (outflow_nonpos_iff.mp h)
      simp [hshares, hfeedback, Matrix.mul_apply]
    · rw [deposited_shared r f c, ← sum_pushed_back]
      simp only [deposited_flatMap]
      congr 1
      refine Finset.sum_congr rfl fun d _ => Finset.sum_congr rfl fun q _ => ?_
      split_ifs
      · rw [ih]
      · rfl

lemma toMatrix_flowInverse (A : Mat K m n) (levels : ℕ) :
    (A.flowInverse levels).toMatrix = series A levels := by
  ext c r
  rw [Mat.toMatrix_apply, Mat.get_flowInverse, received, get_foldl_deposit, deposited_additions,
    one_mul, get_replicate, zero_add]

/-- The flow inverse is the sum of the first powers of the feedback, taken to columns by the direct
shares. A row without positive entries neither shares nor pushes back. -/
theorem flowInverse_eq_series (A : Mat K m n) (levels : ℕ) :
    (A.flowInverse levels).toMatrix =
        shares A * ∑ k ∈ Finset.range (levels + 1), feedback A ^ k ∧
      ∀ r, (∀ c, A.get r c ≤ 0) → (∀ c, shares A c r = 0) ∧ ∀ q, feedback A q r = 0 := by
  refine ⟨?_, fun r hr => column_eq_zero A hr⟩
  exact toMatrix_flowInverse A levels

/-- Two rows that feed each other, and one that only takes. -/
def drained : Mat ℚ 3 2 := ⟨#v[#v[1, -1 / 2], #v[-1 / 2, 1], #v[-1, 0]]⟩

/-- After two levels, half of a half has come back to where it entered. -/
theorem flowInverse_eq_series_drained :
    drained.flowInverse 2 = ⟨#v[#v[5 / 4, 1 / 2, 0], #v[1 / 2, 5 / 4, 0]]⟩ ∧
      (drained.flowInverse 2).toMatrix =
        shares drained * ∑ k ∈ Finset.range 3, feedback drained ^ k ∧
      (∀ c, shares drained c 2 = 0) ∧ ∀ q, feedback drained q 2 = 0 := by
  obtain ⟨hseries, hzero⟩ := flowInverse_eq_series drained 2
  refine ⟨by cbv, hseries, hzero 2 ?_⟩
  decide

end Flow

end Workforce
