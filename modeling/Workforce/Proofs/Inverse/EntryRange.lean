import Workforce.Proofs.Inverse.Exact

/-!
# The range of scaled entries

Where normalizers are exact, equilibration brings the largest entry of every row and of every
column into the interval from `1` to `2` (`Mat.equilibrate_peakInRange`). Scaling the columns does
not undo the scaling of the rows: a column with the largest entry of some row is in range already,
and all other columns are scaled up.
-/

namespace Workforce

variable {K : Type} [Field K] [LinearOrder K] {m n : ℕ}

/-! ### Lines in range -/

/-- The largest absolute value in a line of numbers is at least `1` and less than `2`. -/
structure PeakInRange (line : Fin n → K) : Prop where
  exists_greatest : ∃ j, |line j| ∈ Set.Ico 1 2 ∧ ∀ k, |line k| ≤ |line j|

lemma peakInRange_of_exists {line : Fin n → K} (hlt : ∀ j, |line j| < 2)
    (hle : ∃ j, 1 ≤ |line j|) : PeakInRange line := by
  obtain ⟨k, hk⟩ := hle
  have : Nonempty (Fin n) := ⟨k⟩
  obtain ⟨j, hj⟩ := Finite.exists_max fun j => |line j|
  exact ⟨j, ⟨hk.trans (hj k), hlt j⟩, hj⟩

lemma PeakInRange.lt {line : Fin n → K} (h : PeakInRange line) (j : Fin n) : |line j| < 2 := by
  obtain ⟨k, hk, hmax⟩ := h.exists_greatest
  exact (hmax j).trans_lt hk.2

/-! ### Exact normalizers -/

/-- The normalizer of a positive number is the power of two given by the floor of its logarithm. -/
class ExactNormalizer (K : Type) [Field K] [LinearOrder K] [IsStrictOrderedRing K] [FloorSemiring K]
    [Precision K] : Prop where
  normalizer_eq : ∀ a : K, 0 < a → Precision.normalizer a = 2 ^ (-Int.log 2 a)

instance : ExactNormalizer ℚ where
  normalizer_eq _ _ := rfl

variable [IsStrictOrderedRing K]

section Normalizers

variable [FloorSemiring K] {a : K} {k : ℤ}

lemma two_zpow_le_iff (ha : 0 < a) : 2 ^ k ≤ a ↔ k ≤ Int.log 2 a := by
  simpa using Int.zpow_le_iff_le_log one_lt_two ha

lemma lt_two_zpow_iff (ha : 0 < a) : a < 2 ^ k ↔ Int.log 2 a < k := by
  simpa using Int.lt_zpow_iff_log_lt one_lt_two ha

lemma log_mul_two_zpow (ha : 0 < a) (k : ℤ) : Int.log 2 (a * 2 ^ k) = Int.log 2 a + k := by
  have hpos : 0 < a * 2 ^ k := mul_pos ha (zpow_pos two_pos k)
  refine eq_of_forall_le_iff fun l => ?_
  rw [← two_zpow_le_iff hpos, ← sub_le_iff_le_add, ← two_zpow_le_iff ha, zpow_sub₀ two_ne_zero,
    div_le_iff₀ (zpow_pos two_pos k)]

variable [Precision K] [ExactNormalizer K]

lemma normalizer_pos (ha : 0 < a) : 0 < Precision.normalizer a := by
  rw [ExactNormalizer.normalizer_eq a ha]
  exact zpow_pos two_pos _

lemma one_le_mul_normalizer (ha : 0 < a) : 1 ≤ a * Precision.normalizer a := by
  rw [ExactNormalizer.normalizer_eq a ha, zpow_neg, ← div_eq_mul_inv,
    one_le_div (zpow_pos two_pos _), two_zpow_le_iff ha]

lemma mul_normalizer_lt_two (ha : 0 < a) : a * Precision.normalizer a < 2 := by
  rw [ExactNormalizer.normalizer_eq a ha, zpow_neg, ← div_eq_mul_inv,
    div_lt_iff₀ (zpow_pos two_pos _), ← zpow_one_add₀ two_ne_zero, lt_two_zpow_iff ha]
  exact lt_one_add _

lemma one_le_normalizer (ha : 0 < a) (htwo : a < 2) : 1 ≤ Precision.normalizer a := by
  have hlog : Int.log 2 a < 1 := (lt_two_zpow_iff ha).mp (by simpa using htwo)
  rw [ExactNormalizer.normalizer_eq a ha]
  exact one_le_zpow₀ one_le_two (by omega)

lemma normalizer_eq_one (hone : 1 ≤ a) (htwo : a < 2) : Precision.normalizer a = 1 := by
  have ha := zero_lt_one.trans_le hone
  have hlog : Int.log 2 a < 1 := (lt_two_zpow_iff ha).mp (by simpa using htwo)
  have hlog' : 0 ≤ Int.log 2 a := (two_zpow_le_iff ha).mp (by simpa using hone)
  rw [ExactNormalizer.normalizer_eq a ha, show Int.log 2 a = 0 by omega, neg_zero, zpow_zero]

end Normalizers

/-! ### Peaks -/

namespace Mat

lemma abs_le_rowPeaks (A : Mat K m n) (i : Fin m) (j : Fin n) : |A.get i j| ≤ A.rowPeaks.get i := by
  rw [rowPeaks, get_vectorOfFn]
  refine (peak_spec _).2 _ (List.mem_cons_of_mem 0 ?_)
  rw [row_eq_map, List.map_map]
  exact List.mem_map.mpr ⟨j, List.mem_finRange j, magnitude_eq_abs _⟩

/-- A row with entries has one whose absolute value is its peak. -/
lemma exists_abs_eq_rowPeaks (A : Mat K m n) (i : Fin m) (j : Fin n) :
    ∃ j, |A.get i j| = A.rowPeaks.get i := by
  rcases (abs_nonneg (A.get i j)).trans (A.abs_le_rowPeaks i j) |>.eq_or_lt with hzero | hpos
  · refine ⟨j, le_antisymm (A.abs_le_rowPeaks i j) ?_⟩
    rw [← hzero]
    exact abs_nonneg _
  · have hmem : A.rowPeaks.get i ∈ (0 : K) :: (A.row i).map magnitude := by
      rw [rowPeaks, get_vectorOfFn]
      exact (peak_spec _).1
    rw [List.mem_cons, or_iff_right hpos.ne', row_eq_map, List.map_map] at hmem
    obtain ⟨j, -, hj⟩ := List.mem_map.mp hmem
    exact ⟨j, by rw [← hj, Function.comp_apply, magnitude_eq_abs]⟩

lemma rowPeaks_pos {A : Mat K m n} {i : Fin m} (h : ∃ j, A.get i j ≠ 0) :
    0 < A.rowPeaks.get i := by
  obtain ⟨j, hj⟩ := h
  exact (abs_pos.mpr hj).trans_le (A.abs_le_rowPeaks i j)

end Mat

/-! ### Scaled lines -/

namespace Mat

variable [FloorSemiring K] [Precision K] [ExactNormalizer K]

/-- A row that is not zero is in range once it is scaled by the normalizer of its peak. -/
lemma peakInRange_scaleRows {A : Mat K m n} {i : Fin m} (h : ∃ j, A.get i j ≠ 0) :
    PeakInRange ((A.scaleRows (A.rowPeaks.map Precision.normalizer)).get i) := by
  have hpeak := rowPeaks_pos h
  have hfactor := normalizer_pos hpeak
  have habs : ∀ j, |(A.scaleRows (A.rowPeaks.map Precision.normalizer)).get i j| =
      |A.get i j| * Precision.normalizer (A.rowPeaks.get i) := fun j => by
    rw [get_scaleRows, get_vectorMap, abs_mul, abs_of_pos hfactor]
  refine peakInRange_of_exists (fun j => ?_) ?_
  · rw [habs]
    calc |A.get i j| * Precision.normalizer (A.rowPeaks.get i)
        ≤ A.rowPeaks.get i * Precision.normalizer (A.rowPeaks.get i) := by
          gcongr
          exact A.abs_le_rowPeaks i j
      _ < 2 := mul_normalizer_lt_two hpeak
  · obtain ⟨k, -⟩ := h
    obtain ⟨j, hj⟩ := A.exists_abs_eq_rowPeaks i k
    refine ⟨j, ?_⟩
    rw [habs, hj]
    exact one_le_mul_normalizer hpeak

variable {D : Mat K n n}

lemma peakInRange_halfScaled {i : Fin n} (h : ∃ j, D.get i j ≠ 0) :
    PeakInRange (D.halfScaled.get i) :=
  peakInRange_scaleRows h

/-- Scaling the rows leaves a column that is not zero so. -/
lemma exists_halfScaled_ne_zero (hrows : ∀ i, ∃ j, D.get i j ≠ 0) {j : Fin n}
    (hcolumn : ∃ i, D.get i j ≠ 0) : ∃ i, D.halfScaled.transpose.get j i ≠ 0 := by
  obtain ⟨i, hi⟩ := hcolumn
  refine ⟨i, ?_⟩
  rw [get_transpose, halfScaled, get_scaleRows, rowFactors, get_vectorMap]
  exact mul_ne_zero hi (normalizer_pos (rowPeaks_pos (hrows i))).ne'

lemma columnPeaks_lt_two (hrows : ∀ i, ∃ j, D.get i j ≠ 0) (j : Fin n) :
    D.columnPeaks.get j < 2 := by
  obtain ⟨i, hi⟩ := exists_abs_eq_rowPeaks D.halfScaled.transpose j j
  rw [columnPeaks, ← hi, get_transpose]
  exact (peakInRange_halfScaled (hrows i)).lt j

variable [ExactPrecision K]

/-- A matrix without a line of zeros is scaled to one whose rows and columns all have their largest
entry between `1` and `2`, and it is this matrix that is given to the solver. No column is scaled
down. -/
theorem equilibrate_peakInRange (D : Mat K n n) (hrows : ∀ i, ∃ j, D.get i j ≠ 0)
    (hcolumns : ∀ j, ∃ i, D.get i j ≠ 0) :
    ∃ E, D.equilibrate = .ok E ∧
      (0 < n → ∀ solve, D.invertWith solve =
        match solve E.scaled with
        | .error e => .error (.unsolved n e)
        | .ok X => .ok ((X.scaleRows E.columnFactors).scaleColumns E.rowFactors)) ∧
      (∀ i, PeakInRange fun j => E.scaled.get i j) ∧ (∀ j, PeakInRange fun i => E.scaled.get i j) ∧
      ∀ j, 1 ≤ E.columnFactors.get j := by
  have hcolumnPeaks : ∀ j, 0 < D.columnPeaks.get j := fun j =>
    rowPeaks_pos (exists_halfScaled_ne_zero hrows (hcolumns j))
  have hok : D.equilibrate = .ok D.equilibrated := by
    refine equilibrate_eq_ok_iff.mpr ⟨?_, ?_, rfl⟩
    · exact zeroLine?_eq_none_iff.mpr fun i => by simp [(rowPeaks_pos (hrows i)).ne']
    · exact zeroLine?_eq_none_iff.mpr fun j => by simp [(hcolumnPeaks j).ne']
  have hcolumn : ∀ j, PeakInRange fun i => D.equilibrated.scaled.get i j := fun j => by
    have hline := peakInRange_scaleRows (exists_halfScaled_ne_zero hrows (hcolumns j))
    convert hline using 2 with i
    simp [equilibrated, columnFactors, columnPeaks]
  refine ⟨D.equilibrated, hok, fun hn solve => invertWith_of_equilibrate hn hok, fun i => ?_,
    hcolumn, fun j => ?_⟩
  · -- the column of the largest entry of a row is in range, so it is left as it is
    obtain ⟨j, ⟨hone, -⟩, -⟩ := (peakInRange_halfScaled (hrows i)).exists_greatest
    have hle : |D.halfScaled.get i j| ≤ D.columnPeaks.get j := by
      simpa [columnPeaks] using abs_le_rowPeaks D.halfScaled.transpose j i
    refine peakInRange_of_exists (fun j => (hcolumn j).lt i) ⟨j, ?_⟩
    rw [equilibrated, get_scaleColumns, columnFactors, get_vectorMap,
      normalizer_eq_one (hone.trans hle) (columnPeaks_lt_two hrows j), mul_one]
    exact hone
  · rw [equilibrated, columnFactors, get_vectorMap]
    exact one_le_normalizer (hcolumnPeaks j) (columnPeaks_lt_two hrows j)

end Mat

/-- A matrix with entries of very different magnitudes and no line of zeros. -/
def misscaled : Mat ℚ 3 3 := ⟨#v[#v[0, 3000, 1 / 700], #v[1 / 500, 5, 0], #v[0, -90000, 0]]⟩

/-- The entries of its rows and of its columns are brought into range. -/
theorem equilibrate_peakInRange_misscaled :
    ∃ E, misscaled.equilibrate = .ok E ∧ (∀ i, PeakInRange fun j => E.scaled.get i j) ∧
      (∀ j, PeakInRange fun i => E.scaled.get i j) ∧ ∀ j, 1 ≤ E.columnFactors.get j := by
  have hrows : ∀ i, ∃ j, misscaled.get i j ≠ 0 := by decide +kernel
  have hcolumns : ∀ j, ∃ i, misscaled.get i j ≠ 0 := by decide +kernel
  obtain ⟨E, hok, -, hrange⟩ := Mat.equilibrate_peakInRange misscaled hrows hcolumns
  exact ⟨E, hok, hrange⟩

end Workforce
