import Workforce.Comparison
import Workforce.Proofs.Failure
import Workforce.Proofs.Flow.Series
import Workforce.Proofs.Inverse.Exact

/-!
# When the flow inverse is an inverse

If every row has a positive entry and no column has two, the direct shares undo the matrix up to
the feedback, and the series of the flow inverse telescopes. What is missing to a right inverse is
one power of the feedback. It is zero when rows do not feed each other often enough in a row, and
then the flow inverse of a square matrix is its inverse.
-/

namespace Workforce

open Matrix

variable {K : Type} [Field K] {m n : ℕ} {A : Mat K m n}

/-- The damped left inverse of a square matrix with a right inverse, without damping, is the right
inverse. -/
lemma Mat.dampedInverse_eq_ok [Inverter K] [ExactInverter K] (hm : 0 < m) (hmn : m = n)
    {X : Mat K n m} (hX : A.toMatrix * X.toMatrix = 1) : A.dampedInverse 0 = .ok X := by
  subst hmn
  have hnormal : (A.normal 0).toMatrix = A.toMatrixᵀ * A.toMatrix := by
    rw [Mat.toMatrix_normal, zero_smul, add_zero]
  have hleft : X.toMatrix * A.toMatrix = 1 := mul_eq_one_comm.mp hX
  have hsolved : (A.normal 0).toMatrix * (X.toMatrix * X.toMatrixᵀ) = 1 := by
    rw [hnormal, Matrix.mul_assoc, ← Matrix.mul_assoc A.toMatrix, hX, Matrix.one_mul,
      ← Matrix.transpose_mul, hleft, Matrix.transpose_one]
  obtain ⟨Y, hY, hinverse⟩ := exists_invert_eq_ok hm
    ((Matrix.isUnit_iff_isUnit_det _).mpr (Matrix.isUnit_det_of_right_inverse hsolved))
  have hYX : Y.toMatrix = X.toMatrix * X.toMatrixᵀ :=
    left_inv_eq_right_inv (mul_eq_one_comm.mp hinverse) hsolved
  rw [Mat.dampedInverse, hY, ok_bind, pure_eq_ok, Except.ok.injEq]
  apply Mat.toMatrix_injective
  rw [Mat.toMatrix_mul, hYX, Mat.toMatrix_transpose, Matrix.mul_assoc, ← Matrix.transpose_mul, hX,
    Matrix.transpose_one, Matrix.mul_one]

variable [LinearOrder K]

namespace Flow

/-! ### Walks -/

/-- Row `q` takes from a column that row `r` gives to. -/
def Feeds (A : Mat K m n) (r q : Fin m) : Prop := ∃ c, 0 < A.get r c ∧ A.get q c < 0

instance (A : Mat K m n) (r q : Fin m) : Decidable (Feeds A r q) :=
  inferInstanceAs (Decidable (∃ c, 0 < A.get r c ∧ A.get q c < 0))

lemma feedback_eq_zero {q r : Fin m} (h : ¬ Feeds A r q) : feedback A q r = 0 := by
  rw [feedback_apply, Finset.filter_false_of_mem, Finset.sum_empty]
  intro c _ hc
  exact h ⟨c, hc⟩

/-- What comes back after `k` levels has walked along `k` edges. -/
lemma exists_walk {k : ℕ} {q r : Fin m} (h : (feedback A ^ k) q r ≠ 0) :
    ∃ w : List (Fin m), (r :: w).IsChain (Feeds A) ∧ w.length = k := by
  induction k generalizing r with
  | zero => exact ⟨[], List.isChain_singleton r, rfl⟩
  | succ k ih =>
    rw [pow_succ, Matrix.mul_apply] at h
    obtain ⟨p, -, hp⟩ := Finset.exists_ne_zero_of_sum_ne_zero h
    obtain ⟨w, hw, hlength⟩ := ih (left_ne_zero_of_mul hp)
    have hedge : Feeds A r p := not_imp_comm.mp feedback_eq_zero (right_ne_zero_of_mul hp)
    exact ⟨p :: w, List.isChain_cons_cons.mpr ⟨hedge, hw⟩, by rw [List.length_cons, hlength]⟩

/-- Without walks of `k` edges the feedback dies out. -/
lemma feedback_pow_eq_zero {k : ℕ}
    (h : ∀ w : List (Fin m), w.IsChain (Feeds A) → w.length ≠ k + 1) : feedback A ^ k = 0 := by
  ext q r
  by_contra hne
  obtain ⟨w, hw, hlength⟩ := exists_walk hne
  exact h (r :: w) hw (by rw [List.length_cons, hlength])

/-! ### Telescoping -/

lemma mul_shares_apply (q r : Fin m) :
    (A.toMatrix * shares A) q r = (∑ c with 0 < A.get r c, A.get q c) / outflow A r := by
  rw [Matrix.mul_apply, Finset.sum_filter, Finset.sum_div]
  refine Finset.sum_congr rfl fun c _ => ?_
  rw [Mat.toMatrix_apply, shares_apply]
  split_ifs
  · rw [mul_one_div]
  · rw [mul_zero, zero_div]

variable [IsStrictOrderedRing K]

/-- The direct shares undo a matrix up to its feedback: a row gets its unit back, and other rows
have only negative entries in its columns. -/
lemma mul_shares (hrow : ∀ r, ∃ c, 0 < A.get r c)
    (hcolumn : ∀ c q r, 0 < A.get q c → 0 < A.get r c → q = r) :
    A.toMatrix * shares A = 1 - feedback A := by
  ext q r
  rw [mul_shares_apply, Matrix.sub_apply]
  by_cases hqr : q = r
  · subst hqr
    have hself : ¬ Feeds A q q := by
      rintro ⟨c, hpos, hneg⟩
      exact hpos.not_gt hneg
    obtain ⟨c, hc⟩ := hrow q
    rw [feedback_eq_zero hself, Matrix.one_apply_eq, sub_zero]
    exact div_self (outflow_pos hc).ne'
  · rw [Matrix.one_apply_ne hqr, zero_sub, feedback_apply, ← Finset.filter_filter, ← Finset.sum_div,
      Finset.sum_neg_distrib, neg_div, neg_neg]
    congr 1
    refine (Finset.sum_filter_of_ne fun c hc hne => ?_).symm
    have hpos : ¬ 0 < A.get q c := fun h => hqr (hcolumn c q r h (Finset.mem_filter.mp hc).2)
    exact lt_of_le_of_ne (not_lt.mp hpos) hne

/-- Past the last level one power of the feedback is left over. -/
lemma mul_series (hrow : ∀ r, ∃ c, 0 < A.get r c)
    (hcolumn : ∀ c q r, 0 < A.get q c → 0 < A.get r c → q = r) (levels : ℕ) :
    A.toMatrix * series A levels = 1 - feedback A ^ (levels + 1) := by
  rw [series, ← Matrix.mul_assoc, mul_shares hrow hcolumn, mul_neg_geom_sum]

/-! ### Comparison -/

/-- Two inverses that agree have no deviation, and a right inverse has no residual. -/
lemma compareInverses_eq_ok [Inverter K] {levels : ℕ} {β : K}
    (hexact : A.dampedInverse β = .ok (A.flowInverse levels))
    (hright : A * A.flowInverse levels = Mat.identity) :
    A.compareInverses levels β = .ok ⟨A.flowInverse levels, A.flowInverse levels, 0, 0⟩ := by
  rw [Mat.compareInverses, hexact, ok_bind, pure_eq_ok, Except.ok.injEq, Comparison.mk.injEq]
  refine ⟨rfl, rfl, ?_, ?_⟩
  · rw [peak_magnitude_eq_zero_iff, Mat.forall_mem_entries_iff]
    intro i j
    rw [Mat.get_sub, sub_self]
  · rw [hright, Mat.normSquared_eq_sum]
    simp

/-- A matrix whose rows all have a positive entry and whose columns have at most one. -/
theorem mul_flowInverse_sub_identity [Inverter K] [ExactInverter K] (A : Mat K m n) (hm : 0 < m)
    (hrow : ∀ r, ∃ c, 0 < A.get r c)
    (hcolumn : ∀ c q r, 0 < A.get q c → 0 < A.get r c → q = r) (levels : ℕ) :
    (A * A.flowInverse levels - Mat.identity).toMatrix = -feedback A ^ (levels + 1) ∧
      ((∀ w : List (Fin m), w.IsChain (Feeds A) → w.length ≠ levels + 2) →
        A * A.flowInverse levels = Mat.identity ∧
        (m = n → A.compareInverses levels 0 =
          .ok ⟨A.flowInverse levels, A.flowInverse levels, 0, 0⟩)) := by
  have hproduct : (A * A.flowInverse levels).toMatrix = 1 - feedback A ^ (levels + 1) := by
    rw [Mat.toMatrix_mul, toMatrix_flowInverse, mul_series hrow hcolumn]
  refine ⟨?_, fun hwalk => ?_⟩
  · rw [Mat.toMatrix_sub, hproduct, Mat.toMatrix_identity]
    abel
  · have hright : A * A.flowInverse levels = Mat.identity := by
      apply Mat.toMatrix_injective
      rw [hproduct, feedback_pow_eq_zero hwalk, sub_zero, Mat.toMatrix_identity]
    refine ⟨hright, fun hmn => compareInverses_eq_ok ?_ hright⟩
    apply Mat.dampedInverse_eq_ok hm hmn
    rw [← Mat.toMatrix_mul, hright, Mat.toMatrix_identity]

/-- A supply chain: each row takes from the one above it. -/
def supplyChain : Mat ℚ 3 3 := ⟨#v[#v[2, 0, 0], #v[-1, 1, 0], #v[0, -3, 4]]⟩

/-- Feeding goes down the chain, so two levels of feedback are all there is. -/
theorem mul_flowInverse_sub_identity_supplyChain :
    supplyChain * supplyChain.flowInverse 2 = Mat.identity ∧
      supplyChain.compareInverses 2 0 =
        .ok ⟨supplyChain.flowInverse 2, supplyChain.flowInverse 2, 0, 0⟩ := by
  have hdown : ∀ r q, Feeds supplyChain r q → r < q := by decide
  obtain ⟨-, hinverse⟩ := mul_flowInverse_sub_identity supplyChain (by decide) (by decide)
    (by decide) 2
  obtain ⟨hright, hcompare⟩ := hinverse fun w hw hlength => by
    have hnodup : w.Nodup := (List.isChain_iff_pairwise.mp (hw.imp hdown)).imp ne_of_lt
    exact absurd hnodup.length_le_card (by simp [hlength])
  exact ⟨hright, hcompare rfl⟩

end Flow

end Workforce
