import Workforce.Proofs.Inverse.Stages
import Workforce.Proofs.Number.Normalizer

/-!
# Lines of zeros that are named

Whatever solves scaled systems, a matrix of binary32 entries with a row of zeros is refused with the
number of a row, and one with a column that is zero after its rows are scaled with the number of a
column (`Mat.invert_zeroLine`). The line that is named need not be one of zeros. An undefined entry
is found first, and small entries beside large ones are zero once they are scaled. Where all entries
are finite and the rows are narrow, the line that is named is the first one of zeros.
-/

namespace Workforce

open Single

variable {m n : ℕ}

/-! ### Peaks of rows -/

namespace Mat

section Row

variable {A : Mat Float32 m n} {i : Fin m}

lemma forall_mem_row {P : Float32 → Prop} : (∀ a ∈ A.row i, P a) ↔ ∀ j, P (A.get i j) := by
  rw [row_eq_map]
  simp

lemma rowPeaks_get (A : Mat Float32 m n) (i : Fin m) :
    A.rowPeaks.get i = peak ((A.row i).map magnitude) := get_vectorOfFn _ i

lemma isProper_rowPeaks_iff :
    isProper (A.rowPeaks.get i) = true ↔ ∀ j, isProper (A.get i j) = true := by
  rw [rowPeaks_get, isProper_peak_magnitude_iff, forall_mem_row]

lemma rowPeaks_beq_zero_iff : (A.rowPeaks.get i == 0) = true ↔ ∀ j, (A.get i j == 0) = true := by
  rw [rowPeaks_get, peak_magnitude_beq_zero_iff, forall_mem_row]

lemma isFinite_rowPeaks_iff :
    (A.rowPeaks.get i).isFinite = true ↔ ∀ j, (A.get i j).isFinite = true := by
  rw [rowPeaks_get, isFinite_peak_magnitude_iff, forall_mem_row]

lemma value_le_value_rowPeaks (h : ∀ j, (A.get i j).isFinite = true) (j : Fin n) :
    value (A.get i j) ≤ value (A.rowPeaks.get i) := by
  rw [rowPeaks_get]
  exact value_le_value_peak (forall_mem_row.mpr h) (forall_mem_row.mp (fun a ha => ha) j)

lemma exists_value_eq_value_rowPeaks (h : (A.rowPeaks.get i == 0) = false) :
    ∃ j, value (A.get i j) = value (A.rowPeaks.get i) := by
  rw [rowPeaks_get] at h ⊢
  obtain ⟨a, ha, heq⟩ := exists_value_eq_value_peak h
  rw [row_eq_map, List.mem_map] at ha
  obtain ⟨j, -, rfl⟩ := ha
  exact ⟨j, heq⟩

end Row

end Mat

/-! ### Scaled rows -/

namespace Mat

variable {D : Mat Float32 n n} {i : Fin n}

/-- An entry and its row factor. -/
lemma get_halfScaled (D : Mat Float32 n n) (i j : Fin n) :
    D.halfScaled.get i j = D.get i j * Precision.normalizer (D.rowPeaks.get i) := by
  rw [halfScaled, get_scaleRows, rowFactors, get_vectorMap]

/-- Whether no nonzero entry is below another one of its row by a factor of more than `2 ^ 149`. -/
def HasNarrowRows (D : Mat Float32 n n) : Prop :=
  ∀ i j k, (D.get i j == 0) = false → value (D.get i k) ≤ 2 ^ 149 * value (D.get i j)

instance (D : Mat Float32 n n) : Decidable D.HasNarrowRows :=
  inferInstanceAs (Decidable (∀ _ _ _, _ → _))

/-- An entry of a narrow row stays apart from zero when it is scaled. -/
lemma halfScaled_beq_zero_iff (hfinite : ∀ j, (D.get i j).isFinite = true)
    (hnarrow : D.HasNarrowRows) (hrow : (D.rowPeaks.get i == 0) = false)
    (hfactor : Float32.isFinite (Precision.normalizer (D.rowPeaks.get i)) = true) (j : Fin n) :
    (D.halfScaled.get i j == 0) = true ↔ (D.get i j == 0) = true := by
  rw [get_halfScaled, mul_beq_zero_iff (hfinite j) hfactor]
  constructor
  · intro hle
    by_contra hne
    rw [Bool.not_eq_true] at hne
    obtain ⟨k, hk⟩ := exists_value_eq_value_rowPeaks hrow
    have hpeak := hnarrow i j k hne
    have hpeakFinite := isFinite_rowPeaks_iff.mpr hfinite
    obtain ⟨hhalf, -⟩ := value_mul_normalizer hpeakFinite hrow hfactor
    have hnonneg := value_nonneg (Precision.normalizer (D.rowPeaks.get i))
    -- otherwise the peak of this narrow row would be scaled to one half at most
    refine hhalf.not_ge ?_
    calc value (D.rowPeaks.get i) * value (Precision.normalizer (D.rowPeaks.get i))
        ≤ 2 ^ 149 * value (D.get i j) * value (Precision.normalizer (D.rowPeaks.get i)) := by
          gcongr
          exact hk.symm.trans_le hpeak
      _ = 2 ^ 149 * (value (D.get i j) * value (Precision.normalizer (D.rowPeaks.get i))) :=
          mul_assoc _ _ _
      _ ≤ 2 ^ 149 * 2 ^ (-150 : ℤ) := by gcongr
      _ = 1 / 2 := by norm_num
  · intro hzero
    rw [(beq_zero_iff_value (hfinite j)).mp hzero, zero_mul]
    positivity

/-- A column is zero after scaling only if every row could be scaled. -/
lemma isFinite_of_columnPeaks_beq_zero {j : Fin n} (h : (D.columnPeaks.get j == 0) = true)
    (i : Fin n) : Float32.isFinite (Precision.normalizer (D.rowPeaks.get i)) = true := by
  have hzero := rowPeaks_beq_zero_iff.mp h i
  rw [get_transpose, get_halfScaled] at hzero
  exact (isFinite_of_isFinite_mul (isFinite_of_beq_zero hzero)).2

/-! ### Named lines -/

/-- The row that is named where some row is zero: the first one with an undefined entry if there is
any, and otherwise the first one of zeros. -/
def IsNamed (A : Mat Float32 m n) (i : Fin m) : Prop :=
  (∃ k, ∀ j, (A.get k j == 0) = true) ∧
    (IsFirst (fun k => ∃ j, isProper (A.get k j) = false) i ∨
      (∀ k j, isProper (A.get k j) = true) ∧ IsFirst (fun k => ∀ j, (A.get k j == 0) = true) i)

instance (A : Mat Float32 m n) (i : Fin m) : Decidable (A.IsNamed i) :=
  inferInstanceAs (Decidable (_ ∧ _))

/-- Whether a line is the first row, or the first column, whose entries are all zero. -/
def IsFirstZero (D : Mat Float32 n n) : ZeroLine → Prop
  | .row i => ∃ k : Fin n, k = i ∧ IsFirst (fun k => ∀ j, (D.get k j == 0) = true) k
  | .column j => ∃ k : Fin n, k = j ∧ IsFirst (fun k => ∀ i, (D.get i k == 0) = true) k

instance (D : Mat Float32 n n) : DecidablePred D.IsFirstZero
  | .row i => inferInstanceAs (Decidable (∃ k : Fin n, k = i ∧ IsFirst _ k))
  | .column j => inferInstanceAs (Decidable (∃ k : Fin n, k = j ∧ IsFirst _ k))

lemma zeroLine?_rowPeaks_eq_some_iff {A : Mat Float32 n n} {i : Fin n} :
    zeroLine? A.rowPeaks = some i ↔ A.IsNamed i := by
  have himproper : ∀ k, isProper (A.rowPeaks.get k) = false ↔ ∃ j, isProper (A.get k j) = false :=
    fun k => by
      rw [← Bool.not_eq_true, isProper_rowPeaks_iff]
      simp
  simp only [zeroLine?_eq_some_iff, rowPeaks_beq_zero_iff, isProper_rowPeaks_iff,
    IsFirst.congr himproper, IsNamed]

lemma zeroLine?_rowPeaks_eq_none_iff {A : Mat Float32 n n} :
    zeroLine? A.rowPeaks = none ↔ ∀ k, ¬ ∀ j, (A.get k j == 0) = true := by
  simp only [zeroLine?_eq_none_iff, ← Bool.not_eq_true, rowPeaks_beq_zero_iff]

/-- Where all entries are finite and the rows are narrow, the columns that are zero after scaling
are those that were so before. -/
lemma column_halfScaled_iff (hfinite : D.isFinite = true) (hnarrow : D.HasNarrowRows)
    (hrows : zeroLine? D.rowPeaks = none)
    (hfactor : ∀ i, Float32.isFinite (Precision.normalizer (D.rowPeaks.get i)) = true) (j : Fin n) :
    (∀ i, (D.halfScaled.get i j == 0) = true) ↔ ∀ i, (D.get i j == 0) = true :=
  forall_congr' fun i => halfScaled_beq_zero_iff (isFinite_iff.mp hfinite i) hnarrow
    (zeroLine?_eq_none_iff.mp hrows i) (hfactor i) j

lemma isFirstZero_of_equilibrate_eq_error (hfinite : D.isFinite = true) (hnarrow : D.HasNarrowRows)
    {line : ZeroLine} (h : D.equilibrate = .error line) : D.IsFirstZero line := by
  have hentry := isFinite_iff.mp hfinite
  obtain ⟨i, rfl, hi⟩ | ⟨j, rfl, hrows, hj⟩ := cases_of_equilibrate_eq_error h
  · obtain ⟨-, ⟨⟨j, hj⟩, -⟩ | ⟨-, hfirst⟩⟩ := zeroLine?_rowPeaks_eq_some_iff.mp hi
    · cases (isProper_of_isFinite (hentry i j)).symm.trans hj
    · exact ⟨i, rfl, hfirst⟩
  · rw [columnPeaks, zeroLine?_rowPeaks_eq_some_iff] at hj
    obtain ⟨⟨k, hk⟩, hj⟩ := hj
    have hfactor := isFinite_of_columnPeaks_beq_zero (rowPeaks_beq_zero_iff.mpr hk)
    obtain ⟨⟨i, hi⟩, -⟩ | ⟨-, hfirst⟩ := hj
    · rw [get_transpose, get_halfScaled] at hi
      cases (isProper_mul (hentry i j) (hfactor i)).symm.trans hi
    · simp only [get_transpose] at hfirst
      exact ⟨j, rfl,
        (IsFirst.congr (column_halfScaled_iff hfinite hnarrow hrows hfactor) j).mp hfirst⟩

/-- A row is named for its entries, a column for what they are after the rows are scaled. Where all
entries are finite and the rows are narrow, what is named is a line of zeros, and the first one. -/
theorem invert_zeroLine [LinearSolver Float32] (D : Mat Float32 n n) :
    (∀ i : Fin n, D.invert = .error (.zeroLine n (.row i)) ↔ D.IsNamed i) ∧
    (∀ j : Fin n, D.invert = .error (.zeroLine n (.column j)) ↔
      (∀ i, ¬ ∀ j, (D.get i j == 0) = true) ∧ D.halfScaled.transpose.IsNamed j) ∧
    (D.isFinite = true → D.HasNarrowRows → ∀ size line,
      D.invert = .error (.zeroLine size line) → size = n ∧ D.IsFirstZero line) := by
  have hinvert : ∀ {size line}, D.invert = .error (.zeroLine size line) ↔
      0 < n ∧ size = n ∧ D.equilibrate = .error line := invertWith_eq_zeroLine_iff
  refine ⟨fun i => ?_, fun j => ?_, fun hfinite hnarrow size line h => ?_⟩
  · rw [hinvert, and_iff_right i.pos, and_iff_right rfl, equilibrate_eq_row_iff,
      zeroLine?_rowPeaks_eq_some_iff]
  · rw [hinvert, and_iff_right j.pos, and_iff_right rfl, equilibrate_eq_column_iff,
      zeroLine?_rowPeaks_eq_none_iff, columnPeaks, zeroLine?_rowPeaks_eq_some_iff]
  · obtain ⟨-, hsize, hline⟩ := hinvert.mp h
    exact ⟨hsize, isFirstZero_of_equilibrate_eq_error hfinite hnarrow hline⟩

end Mat

/-- A matrix with a column of zeros. -/
def lackingColumn : Mat Float32 3 3 := ⟨#v[#v[1, 0, 1e-30], #v[2, 0, 1e10], #v[-3, 0, 0.5]]⟩

/-- Its column of zeros is named. -/
theorem invert_zeroLine_lackingColumn :
    lackingColumn.invert = .error (.zeroLine 3 (.column 1)) ∧
      lackingColumn.IsFirstZero (.column 1) := by
  obtain ⟨-, hcolumn, hfirst⟩ := Mat.invert_zeroLine lackingColumn
  have h : lackingColumn.invert = .error (.zeroLine 3 (.column 1)) :=
    (hcolumn 1).mpr (by decide +kernel)
  exact ⟨h, (hfirst (by decide +kernel) (by decide +kernel) _ _ h).2⟩

/-- A matrix whose last column is zero, and whose first column is so small that it is zero after the
rows are scaled. -/
def underflowing : Mat Float32 3 3 :=
  ⟨#v[#v[1e-30, 1e38, 0], #v[2e-30, 1e38, 0], #v[1e-30, 2e38, 0]]⟩

/-- The line that an error names need not be one of zeros. -/
theorem not_forall_isFirstZero :
    ¬ ∀ (n : ℕ) (D : Mat Float32 n n) (size : ℕ) (line : ZeroLine),
      D.invert = .error (.zeroLine size line) → D.IsFirstZero line := by
  intro hall
  have hcolumn : underflowing.equilibrate = .error (.column (0 : Fin 3)) :=
    Mat.equilibrate_eq_column_iff.mpr (by decide +kernel)
  have hzero := hall 3 underflowing 3 (.column 0)
    (Mat.invertWith_eq_zeroLine_iff.mpr ⟨by decide, rfl, hcolumn⟩)
  exact absurd hzero (by decide +kernel)

end Workforce
