import Workforce.Inverse.Basic
import Workforce.Proofs.Mat.Matrix

/-!
# The stages of inverting

Inverting a matrix looks for rows and for columns of zeros, scales the entries and checks that they
are finite, solves the scaled system, and checks that the entries of the inverse are finite. Each
error comes from one of these stages. What a stage finds is stated here for numbers of any kind,
those that compare with nothing included.
-/

namespace Workforce

variable {α : Type} {n : ℕ}

/-! ### First places -/

/-- The first place with a property. -/
def IsFirst (P : Fin n → Prop) (i : Fin n) : Prop := P i ∧ ∀ j < i, ¬ P j

instance (P : Fin n → Prop) [DecidablePred P] (i : Fin n) : Decidable (IsFirst P i) :=
  inferInstanceAs (Decidable (_ ∧ _))

lemma IsFirst.congr {P Q : Fin n → Prop} (h : ∀ i, P i ↔ Q i) (i : Fin n) :
    IsFirst P i ↔ IsFirst Q i := by
  simp only [IsFirst, h]

lemma get_mem (as : Vector α n) (i : Fin n) : as.get i ∈ as := by
  show as[i] ∈ as
  simp

lemma exists_get_eq {as : Vector α n} {a : α} (h : a ∈ as) : ∃ i, as.get i = a := by
  obtain ⟨i, hi, rfl⟩ := Vector.getElem_of_mem h
  exact ⟨⟨i, hi⟩, rfl⟩

lemma get_vectorMap {β : Type} (f : α → β) (as : Vector α n) (i : Fin n) :
    (as.map f).get i = f (as.get i) := by
  show (as.map f)[i] = f as[i]
  simp

lemma findFinIdx?_eq_some_iff {as : Vector α n} {test : α → Bool} {i : Fin n} :
    as.findFinIdx? test = some i ↔ IsFirst (fun j => test (as.get j) = true) i := by
  obtain ⟨as, rfl⟩ := as
  rw [Vector.findFinIdx?_mk, Option.map_eq_some_iff]
  constructor
  · rintro ⟨j, hj, rfl⟩
    obtain ⟨htest, hbefore⟩ := Array.findFinIdx?_eq_some_iff.mp hj
    exact ⟨htest, fun k hk => hbefore k hk⟩
  · rintro ⟨htest, hbefore⟩
    exact ⟨i, Array.findFinIdx?_eq_some_iff.mpr ⟨htest, fun k hk => hbefore k hk⟩, rfl⟩

/-! ### Lines of zeros -/

section ZeroLine

variable [Zero α] [BEq α] {peaks : Vector α n} {i : Fin n}

lemma zeroLine?_eq_none_iff : zeroLine? peaks = none ↔ ∀ i, (peaks.get i == 0) = false := by
  rw [zeroLine?]
  split_ifs with hzero
  · obtain ⟨a, ha, ha0⟩ := Vector.any_eq_true'.mp hzero
    obtain ⟨i, rfl⟩ := exists_get_eq ha
    refine iff_of_false (fun hnone => ?_) fun h => Bool.false_ne_true ((h i).symm.trans ha0)
    rw [Option.orElse_eq_orElse, Option.orElse_eq_or, Option.or_eq_none_iff] at hnone
    exact Vector.findFinIdx?_eq_none_iff.mp hnone.2 _ ha ha0
  · refine iff_of_true rfl fun i => ?_
    rw [← Bool.not_eq_true]
    exact fun hi => hzero (Vector.any_eq_true'.mpr ⟨_, get_mem peaks i, hi⟩)

/-- The line that is named need not be one of zeros: a line that does not compare goes first. -/
lemma zeroLine?_eq_some_iff : zeroLine? peaks = some i ↔
    (∃ j, (peaks.get j == 0) = true) ∧
      (IsFirst (fun j => isProper (peaks.get j) = false) i ∨
        (∀ j, isProper (peaks.get j) = true) ∧ IsFirst (fun j => (peaks.get j == 0) = true) i) := by
  have himproper : (peaks.findFinIdx? fun p => !isProper p) = some i ↔
      IsFirst (fun j => isProper (peaks.get j) = false) i :=
    findFinIdx?_eq_some_iff.trans (IsFirst.congr (by simp) i)
  have hfirst : peaks.findFinIdx? (· == 0) = some i ↔
      IsFirst (fun j => (peaks.get j == 0) = true) i := findFinIdx?_eq_some_iff
  rw [← himproper, ← hfirst]
  -- without a line of zeros none is named, and with one the search may stop before it
  by_cases hzero : ∃ j, (peaks.get j == 0) = true
  · obtain ⟨j, hj⟩ := hzero
    have hany : peaks.any (· == 0) = true := Vector.any_eq_true'.mpr ⟨_, get_mem peaks j, hj⟩
    rw [zeroLine?, if_pos hany, and_iff_right ⟨j, hj⟩]
    cases hk : peaks.findFinIdx? (fun p => !isProper p) with
    | none =>
      have hall : ∀ j, isProper (peaks.get j) = true := fun j => by
        simpa using Vector.findFinIdx?_eq_none_iff.mp hk _ (get_mem peaks j)
      simp [hall]
    | some k =>
      have hk := (findFinIdx?_eq_some_iff.mp hk).1
      have hsome : ¬ ∀ j, isProper (peaks.get j) = true := fun hall => by simp [hall k] at hk
      simp [hsome]
  · refine iff_of_false (fun hsome => ?_) fun h => hzero h.1
    have hnone := zeroLine?_eq_none_iff.mpr fun j => Bool.eq_false_iff.mpr fun hj => hzero ⟨j, hj⟩
    rw [hnone] at hsome
    cases hsome

/-- What is named depends on which peaks are zero and on which compare. -/
lemma zeroLine?_congr {peaks' : Vector α n} (hzero : ∀ i, (peaks.get i == 0) = (peaks'.get i == 0))
    (hproper : ∀ i, isProper (peaks.get i) = isProper (peaks'.get i)) :
    zeroLine? peaks = zeroLine? peaks' := by
  refine Option.ext fun i => ?_
  simp only [zeroLine?_eq_some_iff, hzero, hproper]

end ZeroLine

namespace Mat

lemma isFinite_iff [Precision α] {m : ℕ} {A : Mat α m n} :
    A.isFinite = true ↔ ∀ i j, Precision.isFinite (A.get i j) = true := by
  rw [isFinite, List.all_eq_true, forall_mem_entries_iff]

/-! ### Equilibration -/

variable [Zero α] [Mul α] [Neg α] [BEq α] [LT α] [DecidableLT α] [Precision α] {D : Mat α n n}

/-- The factors of the rows of a matrix. -/
def rowFactors (D : Mat α n n) : Vector α n := D.rowPeaks.map Precision.normalizer

/-- A matrix with its rows scaled. -/
def halfScaled (D : Mat α n n) : Mat α n n := D.scaleRows D.rowFactors

/-- The peaks of the columns after the rows are scaled. -/
def columnPeaks (D : Mat α n n) : Vector α n := D.halfScaled.transpose.rowPeaks

/-- The factors of the columns of a matrix. -/
def columnFactors (D : Mat α n n) : Vector α n := D.columnPeaks.map Precision.normalizer

/-- A matrix with its rows and its columns scaled. -/
def equilibrated (D : Mat α n n) : Equilibrated α n :=
  ⟨D.halfScaled.scaleColumns D.columnFactors, D.rowFactors, D.columnFactors⟩

lemma equilibrate_eq : D.equilibrate =
    match zeroLine? D.rowPeaks, zeroLine? D.columnPeaks with
    | some i, _ => .error (.row i)
    | none, some j => .error (.column j)
    | none, none => .ok D.equilibrated := by
  cases hrow : zeroLine? D.rowPeaks with
  | some i => simp only [equilibrate, hrow]
  | none =>
    -- the definition has the bodies of the stages in place of their names
    cases hcolumn : zeroLine? D.columnPeaks <;>
      rw [columnPeaks, halfScaled, rowFactors] at hcolumn <;>
      simp only [equilibrate, equilibrated, columnFactors, columnPeaks, halfScaled, rowFactors,
        hrow, hcolumn]

lemma equilibrate_eq_ok_iff {E : Equilibrated α n} : D.equilibrate = .ok E ↔
    zeroLine? D.rowPeaks = none ∧ zeroLine? D.columnPeaks = none ∧ E = D.equilibrated := by
  rw [equilibrate_eq]
  cases zeroLine? D.rowPeaks <;> cases zeroLine? D.columnPeaks <;> simp [eq_comm]

lemma equilibrate_eq_row_iff {i : Fin n} : D.equilibrate = .error (.row i) ↔
    zeroLine? D.rowPeaks = some i := by
  rw [equilibrate_eq]
  cases zeroLine? D.rowPeaks <;> cases zeroLine? D.columnPeaks <;> simp [Fin.ext_iff]

lemma equilibrate_eq_column_iff {j : Fin n} : D.equilibrate = .error (.column j) ↔
    zeroLine? D.rowPeaks = none ∧ zeroLine? D.columnPeaks = some j := by
  rw [equilibrate_eq]
  cases zeroLine? D.rowPeaks <;> cases zeroLine? D.columnPeaks <;> simp [Fin.ext_iff]

lemma cases_of_equilibrate_eq_error {line : ZeroLine} (h : D.equilibrate = .error line) :
    (∃ i : Fin n, line = .row i ∧ zeroLine? D.rowPeaks = some i) ∨
      ∃ j : Fin n, line = .column j ∧ zeroLine? D.rowPeaks = none ∧
        zeroLine? D.columnPeaks = some j := by
  rw [equilibrate_eq] at h
  cases hi : zeroLine? D.rowPeaks with
  | some i =>
    rw [hi] at h
    cases h
    exact .inl ⟨i, rfl, rfl⟩
  | none =>
    cases hj : zeroLine? D.columnPeaks with
    | some j =>
      rw [hi, hj] at h
      cases h
      exact .inr ⟨j, rfl, rfl, rfl⟩
    | none =>
      rw [hi, hj] at h
      cases h

/-! ### Outcomes -/

variable {solve : Mat α n n → Except SystemError (Mat α n n)}

lemma invertWith_of_error {line : ZeroLine} (hn : 0 < n) (h : D.equilibrate = .error line) :
    D.invertWith solve = .error (.zeroLine n line) := by
  rw [invertWith, if_neg (Nat.ne_of_gt hn), h]

lemma invertWith_of_ok {E : Equilibrated α n} (hn : 0 < n) (h : D.equilibrate = .ok E) :
    D.invertWith solve =
      if E.scaled.isFinite then
        match solve E.scaled with
        | .error e => .error (.unsolved n e)
        | .ok X =>
          if ((X.scaleRows E.columnFactors).scaleColumns E.rowFactors).isFinite then
            .ok ((X.scaleRows E.columnFactors).scaleColumns E.rowFactors)
          else .error (.overflow n)
      else .error .notFinite := by
  rw [invertWith, if_neg (Nat.ne_of_gt hn), h]
  dsimp only
  cases E.scaled.isFinite <;> rfl

/-- Every matrix with entries is refused for a line, for its scaled entries, for its scaled system,
for an inverse out of range, or inverted to finite entries. -/
lemma invertWith_cases (solve : Mat α n n → Except SystemError (Mat α n n)) (D : Mat α n n)
    (hn : 0 < n) :
    (∃ line, D.equilibrate = .error line ∧ D.invertWith solve = .error (.zeroLine n line)) ∨
      ∃ E, D.equilibrate = .ok E ∧
        (E.scaled.isFinite = false ∧ D.invertWith solve = .error .notFinite ∨
          E.scaled.isFinite = true ∧
            ((∃ e, D.invertWith solve = .error (.unsolved n e)) ∨
              D.invertWith solve = .error (.overflow n) ∨
              ∃ X, D.invertWith solve = .ok X ∧ X.isFinite = true)) := by
  cases h : D.equilibrate with
  | error line => exact .inl ⟨line, rfl, invertWith_of_error hn h⟩
  -- each check is made only where the ones before it have passed
  | ok E =>
    refine .inr ⟨E, rfl, ?_⟩
    rw [invertWith_of_ok hn h]
    cases hfinite : E.scaled.isFinite with
    | false => exact .inl ⟨rfl, rfl⟩
    | true =>
      refine .inr ⟨rfl, ?_⟩
      rw [if_pos rfl]
      cases solve E.scaled with
      | error e => exact .inl ⟨e, rfl⟩
      | ok X =>
        dsimp only
        split_ifs with hX
        · exact .inr (.inr ⟨_, rfl, hX⟩)
        · exact .inr (.inl rfl)

lemma invertWith_eq_zeroLine_iff {k : ℕ} {line : ZeroLine} :
    D.invertWith solve = .error (.zeroLine k line) ↔
      0 < n ∧ k = n ∧ D.equilibrate = .error line := by
  rcases Nat.eq_zero_or_pos n with hn | hn
  · rw [invertWith, if_pos hn]
    simp [hn]
  obtain ⟨line', hline, h⟩ | ⟨E, hE, ⟨-, h⟩ | ⟨-, ⟨e, h⟩ | h | ⟨X, h, -⟩⟩⟩ :=
    invertWith_cases solve D hn
  · rw [h, hline]
    simp [hn, eq_comm]
  all_goals simp [h, hE]

lemma invertWith_eq_notFinite_iff : D.invertWith solve = .error .notFinite ↔
    0 < n ∧ ∃ E, D.equilibrate = .ok E ∧ E.scaled.isFinite = false := by
  rcases Nat.eq_zero_or_pos n with hn | hn
  · rw [invertWith, if_pos hn]
    simp [hn]
  obtain ⟨line, hline, h⟩ | ⟨E, hE, ⟨hfinite, h⟩ | ⟨hfinite, ⟨e, h⟩ | h | ⟨X, h, -⟩⟩⟩ :=
    invertWith_cases solve D hn
  · simp [h, hline]
  all_goals simp [h, hE, hfinite, hn]

lemma invertWith_eq_empty_iff : D.invertWith solve = .error .empty ↔ n = 0 := by
  rcases Nat.eq_zero_or_pos n with hn | hn
  · simp [invertWith, hn]
  obtain ⟨line, -, h⟩ | ⟨E, -, ⟨-, h⟩ | ⟨-, ⟨e, h⟩ | h | ⟨X, h, -⟩⟩⟩ :=
    invertWith_cases solve D hn
  all_goals simp [h, Nat.ne_of_gt hn]

end Mat

end Workforce
