import Workforce.Descent.Problem
import Workforce.Proofs.Inverse.ZeroLines

/-!
# Outcomes of inverting

Whatever solves scaled systems, inverting a grid of binary32 entries ends in a finite inverse, in an
error that names its shape, or in one that calls the matrix singular, with two exceptions
(`Grid.invert_outcome`): a grid without entries, and one whose scaled entries are not all finite.
The latter have an entry that is not finite itself, or a line whose entries are all too small for a
factor that brings them to one.
-/

namespace Workforce

open Single

variable {m n : ℕ}

namespace Mat

/-! ### Finite scaled entries -/

/-- A row is scaled to finite entries if its entries are finite and one of them is large enough. -/
lemma isFinite_scaled_row_iff {A : Mat Float32 m n} {i : Fin m}
    (hrow : (A.rowPeaks.get i == 0) = false) :
    (∀ j, (A.get i j * Precision.normalizer (A.rowPeaks.get i)).isFinite = true) ↔
      (∀ j, (A.get i j).isFinite = true) ∧ ∃ j, leastScalable ≤ value (A.get i j) := by
  -- a factor is finite exactly if the peak is large enough, and some entry reaches the peak
  obtain ⟨k, hk⟩ := exists_value_eq_value_rowPeaks hrow
  constructor
  · intro hscaled
    have hentries : ∀ j, (A.get i j).isFinite = true := fun j =>
      (isFinite_of_isFinite_mul (hscaled j)).1
    have hfactor := (isFinite_of_isFinite_mul (hscaled k)).2
    refine ⟨hentries, k, ?_⟩
    rw [hk]
    exact (isFinite_normalizer_iff (isFinite_rowPeaks_iff.mpr hentries) hrow).mp hfactor
  · rintro ⟨hentries, l, hl⟩ j
    have hpeak := isFinite_rowPeaks_iff.mpr hentries
    have hfactor := (isFinite_normalizer_iff hpeak hrow).mpr
      (hl.trans (value_le_value_rowPeaks hentries l))
    have hnonneg := value_nonneg (Precision.normalizer (A.rowPeaks.get i))
    refine isFinite_mul (hentries j) hfactor ?_
    calc value (A.get i j) * value (Precision.normalizer (A.rowPeaks.get i))
        ≤ value (A.rowPeaks.get i) * value (Precision.normalizer (A.rowPeaks.get i)) := by
          gcongr
          exact value_le_value_rowPeaks hentries j
      _ ≤ 2 := (value_mul_normalizer hpeak hrow hfactor).2.le
      _ ≤ 2 ^ (127 : ℤ) := by norm_num

/-- Whether rows and columns can be scaled: no row is zero, and no column is once the rows are
scaled. -/
def HasNoZeroLine (D : Mat Float32 n n) : Prop :=
  (∀ i, ¬ ∀ j, (D.get i j == 0) = true) ∧ ∀ j, ¬ ∀ i, (D.halfScaled.get i j == 0) = true

/-- Whether all entries are finite, and each row, and each column once the rows are scaled, has an
entry that is large enough for a finite factor. -/
def IsScalable (D : Mat Float32 n n) : Prop :=
  D.isFinite = true ∧ (∀ i, ∃ j, leastScalable ≤ value (D.get i j)) ∧
    ∀ j, ∃ i, leastScalable ≤ value (D.halfScaled.get i j)

instance (D : Mat Float32 n n) : Decidable D.HasNoZeroLine := inferInstanceAs (Decidable (_ ∧ _))

instance (D : Mat Float32 n n) : Decidable D.IsScalable := inferInstanceAs (Decidable (_ ∧ _ ∧ _))

variable {D : Mat Float32 n n}

lemma equilibrate_eq_equilibrated_iff :
    D.equilibrate = .ok D.equilibrated ↔ D.HasNoZeroLine := by
  rw [equilibrate_eq_ok_iff, and_iff_left rfl, zeroLine?_rowPeaks_eq_none_iff, columnPeaks,
    zeroLine?_rowPeaks_eq_none_iff, HasNoZeroLine]
  simp only [get_transpose]

lemma isFinite_equilibrated_iff (h : D.HasNoZeroLine) :
    D.equilibrated.scaled.isFinite = true ↔ D.IsScalable := by
  obtain ⟨hrows, hcolumns, -⟩ := equilibrate_eq_ok_iff.mp (equilibrate_eq_equilibrated_iff.mpr h)
  rw [zeroLine?_eq_none_iff] at hrows hcolumns
  have hcolumn : ∀ j, (∀ i, (D.equilibrated.scaled.get i j).isFinite = true) ↔
      (∀ i, (D.halfScaled.get i j).isFinite = true) ∧
        ∃ i, leastScalable ≤ value (D.halfScaled.get i j) := fun j => by
    simpa [equilibrated, columnFactors, columnPeaks, get_vectorMap] using
      isFinite_scaled_row_iff (hcolumns j)
  have hrow : ∀ i, (∀ j, (D.halfScaled.get i j).isFinite = true) ↔
      (∀ j, (D.get i j).isFinite = true) ∧ ∃ j, leastScalable ≤ value (D.get i j) := fun i => by
    simpa only [get_halfScaled] using isFinite_scaled_row_iff (hrows i)
  have hscaled : D.equilibrated.scaled.isFinite = true ↔
      ∀ j i, (D.equilibrated.scaled.get i j).isFinite = true := isFinite_iff.trans forall_comm
  rw [hscaled, IsScalable, isFinite_iff]
  simp only [hcolumn, forall_and]
  rw [forall_comm]
  simp only [hrow, forall_and, and_assoc]
  rfl

variable [LinearSolver Float32]

lemma invert_eq_notFinite_iff : D.invert = .error .notFinite ↔
    0 < n ∧ D.HasNoZeroLine ∧ ¬ D.IsScalable := by
  change D.invertWith LinearSolver.solveIdentity = .error .notFinite ↔ _
  rw [invertWith_eq_notFinite_iff]
  refine and_congr_right fun _ => ?_
  constructor
  · rintro ⟨E, hok, hfinite⟩
    obtain ⟨-, -, rfl⟩ := equilibrate_eq_ok_iff.mp hok
    have hline := equilibrate_eq_equilibrated_iff.mp hok
    exact ⟨hline, fun hD => by simp [(isFinite_equilibrated_iff hline).mpr hD] at hfinite⟩
  · rintro ⟨hline, hD⟩
    exact ⟨D.equilibrated, equilibrate_eq_equilibrated_iff.mpr hline,
      Bool.not_eq_true _ ▸ mt (isFinite_equilibrated_iff hline).mp hD⟩

/-- A square matrix has a finite inverse, is refused as singular, is empty, or has scaled entries
that are not finite. -/
lemma invert_cases (D : Mat Float32 n n) :
    (∃ X, D.invert = .ok X ∧ X.isFinite = true) ∨
      (∃ e, D.invert = .error e ∧ e.isSingular = true) ∨
      D.invert = .error .empty ∨ D.invert = .error .notFinite := by
  rcases Nat.eq_zero_or_pos n with hn | hn
  · exact .inr (.inr (.inl (invertWith_eq_empty_iff.mpr hn)))
  obtain ⟨line, -, h⟩ | ⟨E, -, ⟨-, h⟩ | ⟨-, ⟨e, h⟩ | h | ⟨X, h, hX⟩⟩⟩ :=
    invertWith_cases LinearSolver.solveIdentity D hn
  · exact .inr (.inl ⟨_, h, by cases line <;> rfl⟩)
  · exact .inr (.inr (.inr h))
  · exact .inr (.inl ⟨_, h, rfl⟩)
  · exact .inr (.inl ⟨_, h, rfl⟩)
  · exact .inl ⟨X, h, hX⟩

end Mat

/-! ### Grids -/

namespace Grid

section

variable [LinearSolver Float32]

/-- What inverting is meant to end in: a finite inverse of the same size, or an error that is about
the shape or calls the matrix singular. -/
def InvertsOrRefuses (D : Grid Float32) : Prop :=
  (∃ X, D.invert = .ok X ∧ D.cols = D.rows ∧ X.shape = D.shape ∧ X.body.isFinite = true) ∨
    (∃ e, D.invert = .error (.shape e)) ∨
    ∃ e, D.invert = .error (.inversion e) ∧ e.isSingular = true

variable (A : Mat Float32 n n)

lemma invert_eq_inversion_iff (e : InversionError) :
    Grid.invert ⟨A⟩ = .error (.inversion e) ↔ A.invert = .error e := by
  rw [invert_mk]
  cases A.invert <;> simp [Except.map, Except.mapError]

lemma invertsOrRefuses_mk_iff : InvertsOrRefuses ⟨A⟩ ↔
    A.invert ≠ .error .empty ∧ A.invert ≠ .error .notFinite := by
  obtain ⟨X, h, hX⟩ | ⟨e, h, he⟩ | h | h := A.invert_cases
  · refine iff_of_true (.inl ⟨⟨X⟩, ?_, rfl, rfl, hX⟩) (by simp [h])
    rw [invert_mk, h]
    rfl
  · refine iff_of_true (.inr (.inr ⟨e, (invert_eq_inversion_iff A e).mpr h, he⟩)) ?_
    rw [h]
    constructor <;> rintro ⟨⟩ <;> cases he
  all_goals
    refine iff_of_false ?_ (by simp [h])
    have hgrid := (invert_eq_inversion_iff A _).mpr h
    rintro (⟨X, hX, -⟩ | ⟨e, he⟩ | ⟨e, he, hsingular⟩)
    · cases hgrid.symm.trans hX
    · cases hgrid.symm.trans he
    · cases hgrid.symm.trans he
      cases hsingular

/-- A grid that is not square is refused for its shape. Inverting ends as it is meant to unless a
square matrix has no entries, or has neither a line of zeros nor entries that can be scaled. These
two cases have errors of their own. -/
theorem invert_outcome (D : Grid Float32) :
    (D.cols ≠ D.rows → D.invert = .error (.shape (.notSquare D.shape))) ∧
    (D.InvertsOrRefuses ↔
      ∀ (n : ℕ) (A : Mat Float32 n n), D = ⟨A⟩ → 0 < n ∧ (A.HasNoZeroLine → A.IsScalable)) ∧
    ∀ (n : ℕ) (A : Mat Float32 n n), D = ⟨A⟩ →
      (D.invert = .error (.inversion .empty) ↔ n = 0) ∧
      (D.invert = .error (.inversion .notFinite) ↔ 0 < n ∧ A.HasNoZeroLine ∧ ¬ A.IsScalable) := by
  have hshape : D.cols ≠ D.rows → D.invert = .error (.shape (.notSquare D.shape)) :=
    fun h => dif_neg h
  have hempty : ∀ {n} (A : Mat Float32 n n), A.invert = .error .empty ↔ n = 0 := fun _ =>
    Mat.invertWith_eq_empty_iff
  refine ⟨hshape, ?_, ?_⟩
  -- what is not square has no matrix to ask about, and is refused for its shape
  · by_cases hsquare : D.cols = D.rows
    · obtain ⟨A⟩ := D
      dsimp only at hsquare
      subst hsquare
      rw [invertsOrRefuses_mk_iff, ne_eq, hempty, ne_eq, Mat.invert_eq_notFinite_iff]
      -- the two exceptions are errors of their own, which the matrix has to exclude
      constructor
      · rintro ⟨hn, hfinite⟩ _ _ ⟨⟩
        exact ⟨Nat.pos_of_ne_zero hn, fun hline => by_contra fun hA =>
          hfinite ⟨Nat.pos_of_ne_zero hn, hline, hA⟩⟩
      · intro h
        obtain ⟨hn, hA⟩ := h _ A rfl
        exact ⟨hn.ne', fun hfinite => hfinite.2.2 (hA hfinite.2.1)⟩
    · refine iff_of_true (.inr (.inl ⟨_, hshape hsquare⟩)) ?_
      rintro n A rfl
      exact absurd rfl hsquare
  · rintro n A rfl
    rw [invert_eq_inversion_iff, invert_eq_inversion_iff, Mat.invert_eq_notFinite_iff]
    exact ⟨hempty A, Iff.rfl⟩

end

/-- A matrix that can be scaled, although its entries are of very different magnitudes. -/
def widespread : Mat Float32 2 2 := ⟨#v[#v[1e-30, 3], #v[-1e-35, 1e30]]⟩

/-- A grid that is not square, a matrix that can be scaled, and one without entries. -/
theorem invert_outcome_widespread :
    Grid.invert ⟨(Mat.zero : Mat Float32 1 2)⟩ = .error (.shape (.notSquare ⟨1, 2⟩)) ∧
    InvertsOrRefuses ⟨widespread⟩ ∧
    Grid.invert ⟨(Mat.zero : Mat Float32 0 0)⟩ = .error (.inversion .empty) := by
  refine ⟨(invert_outcome ⟨Mat.zero⟩).1 (by decide), (invert_outcome _).2.1.mpr ?_, ?_⟩
  · rintro _ _ ⟨⟩
    exact ⟨by decide, fun _ => by decide +kernel⟩
  · exact ((invert_outcome ⟨Mat.zero⟩).2.2 0 Mat.zero rfl).1.mpr rfl

/-- A matrix whose entry is too small to be scaled. -/
def tiny : Mat Float32 1 1 := ⟨#v[#v[1e-40]]⟩

/-- Inverting does not always end as it is meant to. -/
theorem not_forall_invertsOrRefuses : ¬ ∀ D : Grid Float32, D.InvertsOrRefuses := by
  intro hall
  refine ((invertsOrRefuses_mk_iff tiny).mp (hall ⟨tiny⟩)).2 ?_
  exact Mat.invert_eq_notFinite_iff.mpr ⟨by decide, by decide +kernel, by decide +kernel⟩

end Grid

end Workforce
