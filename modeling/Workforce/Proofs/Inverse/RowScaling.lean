import Workforce.Proofs.Inverse.EntryRange
import Workforce.Proofs.Number.Peak

/-!
# Badly scaled rows

Scaling rows by powers of two does not change the system that is solved: equilibration undoes it
(`Mat.equilibrate_scaleRows`). So a matrix is inverted exactly if it is after any such scaling, the
errors are the same, and the inverses differ by the inverse scaling
(`Mat.invertWith_scaleRows`).

No more is asked of numbers than that products with powers of two are exact. Other operations may
round, numbers may be infinite, and some may compare with nothing.
-/

namespace Workforce

variable {α : Type} {m n : ℕ}

/-- The diagonal of a matrix of powers of two. -/
def powers (power : ℤ → α) (e : Fin n → ℤ) : Vector α n := Vector.ofFn fun i => power (e i)

@[simp] lemma get_powers (power : ℤ → α) (e : Fin n → ℤ) (i : Fin n) :
    (powers power e).get i = power (e i) := Mat.get_vectorOfFn _ i

/-- An equilibrated system whose row factors are divided by powers of two. -/
def Equilibrated.shiftRows [Mul α] (power : ℤ → α) (E : Equilibrated α n) (e : Fin n → ℤ) :
    Equilibrated α n :=
  { E with rowFactors := Vector.ofFn fun i => E.rowFactors.get i * power (-e i) }

lemma Mat.row_scaleRows [Mul α] (A : Mat α m n) (factors : Vector α m) (i : Fin m) :
    (A.scaleRows factors).row i = (A.row i).map (· * factors.get i) := by
  simp [row_eq_map]

variable [Zero α] [Mul α] [Neg α] [BEq α] [LT α] [Precision α]

/-- Multiplying by powers of two is exact: it can be undone, it respects comparisons, it commutes
with the other operations, and normalizers follow it. -/
structure ExactScaling (power : ℤ → α) : Prop where
  mul_power_zero : ∀ a, a * power 0 = a
  mul_power_mul_power : ∀ a k l, a * power k * power l = a * power (k + l)
  zero_mul_power : ∀ k, 0 * power k = 0
  neg_mul_power : ∀ a k, -a * power k = -(a * power k)
  mul_mul_power : ∀ a b k, a * (b * power k) = a * b * power k
  mul_power_mul : ∀ a b k, a * power k * b = a * b * power k
  mul_power_lt_iff : ∀ a b k, a * power k < b * power k ↔ a < b
  mul_power_beq : ∀ a b k, (a * power k == b * power k) = (a == b)
  isFinite_mul_power : ∀ a k, Precision.isFinite (a * power k) = Precision.isFinite a
  /-- Numbers that are not positive have no logarithm, except for those that do not compare. -/
  normalizer_mul_power : ∀ a k, 0 < a ∨ isProper a = false →
    Precision.normalizer (a * power k) = Precision.normalizer a * power (-k)
  zero_beq : ((0 : α) == 0) = true
  pos_trans : ∀ a b : α, 0 < a → a < b → 0 < b

namespace ExactScaling

variable {power : ℤ → α} (hpower : ExactScaling power)

include hpower

/-! ### Comparisons -/

lemma isProper_mul_power (a : α) (k : ℤ) : isProper (a * power k) = isProper a :=
  hpower.mul_power_beq a a k

lemma mul_power_beq_zero (a : α) (k : ℤ) : (a * power k == 0) = (a == 0) := by
  rw [← hpower.mul_power_beq a 0 k, hpower.zero_mul_power]

lemma mul_power_lt_zero_iff (a : α) (k : ℤ) : a * power k < 0 ↔ a < 0 := by
  rw [← hpower.mul_power_lt_iff a 0 k, hpower.zero_mul_power]

variable [DecidableLT α]

lemma magnitude_mul (a : α) (k : ℤ) : magnitude (a * power k) = magnitude a * power k := by
  by_cases h : a < 0
  · rw [magnitude, if_pos ((hpower.mul_power_lt_zero_iff a k).mpr h), magnitude, if_pos h,
      hpower.neg_mul_power]
  · rw [magnitude, if_neg (mt (hpower.mul_power_lt_zero_iff a k).mp h), magnitude, if_neg h]

lemma larger_mul (a b : α) (k : ℤ) : larger (a * power k) (b * power k) = larger a b * power k := by
  by_cases h : a < b
  · rw [larger_of_lt h, larger_of_lt ((hpower.mul_power_lt_iff a b k).mpr h)]
  · rw [larger_of_not_lt h, larger_of_not_lt (mt (hpower.mul_power_lt_iff a b k).mp h)]

/-! ### Peaks -/

lemma peak_map_mul (as : List α) (k : ℤ) : peak (as.map (· * power k)) = peak as * power k := by
  rw [peak_eq_foldl, List.foldl_map, peak_eq_foldl]
  nth_rewrite 1 [← hpower.zero_mul_power k]
  refine List.foldl_hom (· * power k) fun p a => ?_
  simp only [rankedHigher, hpower.isProper_mul_power, hpower.larger_mul]
  split_ifs <;> rfl

/-- A peak is zero, or it has a normalizer. -/
lemma peak_cases (as : List α) : peak as = 0 ∨ 0 < peak as ∨ isProper (peak as) = false := by
  rw [peak_eq_foldl]
  refine List.foldlRecOn (motive := fun p => p = 0 ∨ 0 < p ∨ isProper p = false) as _ (.inl rfl)
    fun p hp a _ => ?_
  by_cases hproper : isProper p = true ∧ isProper a = true
  · rw [rankedHigher_of_isProper hproper.1 hproper.2]
    by_cases hlt : p < a
    · rw [larger_of_lt hlt]
      obtain rfl | hpos | hp := hp
      · exact .inr (.inl hlt)
      · exact .inr (.inl (hpower.pos_trans p a hpos hlt))
      · cases hproper.1.symm.trans hp
    · rwa [larger_of_not_lt hlt]
  · right; right
    rwa [isProper_rankedHigher, ← Bool.not_eq_true, Bool.and_eq_true]

end ExactScaling

/-! ### Scaled rows -/

namespace Mat

variable {power : ℤ → α} (hpower : ExactScaling power)

include hpower

lemma isFinite_scaleColumns (A : Mat α m n) (e : Fin n → ℤ) :
    (A.scaleColumns (powers power e)).isFinite = A.isFinite := by
  rw [Bool.eq_iff_iff, isFinite_iff, isFinite_iff]
  simp only [get_scaleColumns, get_powers, hpower.isFinite_mul_power]

variable [DecidableLT α]

lemma rowPeaks_scaleRows (A : Mat α m n) (e : Fin m → ℤ) (i : Fin m) :
    (A.scaleRows (powers power e)).rowPeaks.get i = A.rowPeaks.get i * power (e i) := by
  have hmap : (A.scaleRows (powers power e)).row i = (A.row i).map (· * power (e i)) := by
    rw [row_scaleRows, get_powers]
  have hcomm : magnitude ∘ (· * power (e i)) = (· * power (e i)) ∘ magnitude :=
    funext fun a => hpower.magnitude_mul a (e i)
  rw [rowPeaks, get_vectorOfFn, rowPeaks, get_vectorOfFn, hmap, List.map_map, hcomm,
    ← List.map_map, hpower.peak_map_mul]

lemma zeroLine?_rowPeaks_scaleRows (A : Mat α m n) (e : Fin m → ℤ) :
    zeroLine? (A.scaleRows (powers power e)).rowPeaks = zeroLine? A.rowPeaks := by
  refine zeroLine?_congr (fun i => ?_) fun i => ?_
  · rw [rowPeaks_scaleRows hpower, hpower.mul_power_beq_zero]
  · rw [rowPeaks_scaleRows hpower, hpower.isProper_mul_power]

variable {D : Mat α n n} {e : Fin n → ℤ}

/-- The factor of a row is smaller where the row is larger. -/
lemma rowFactors_scaleRows (h : zeroLine? D.rowPeaks = none) (i : Fin n) :
    (D.scaleRows (powers power e)).rowFactors.get i = D.rowFactors.get i * power (-e i) := by
  have hzero := zeroLine?_eq_none_iff.mp h i
  rw [rowFactors, get_vectorMap, rowPeaks_scaleRows hpower, rowFactors, get_vectorMap,
    hpower.normalizer_mul_power]
  rw [rowPeaks, get_vectorOfFn] at hzero ⊢
  refine (hpower.peak_cases _).resolve_left fun hpeak => ?_
  rw [hpeak, hpower.zero_beq] at hzero
  cases hzero

lemma halfScaled_scaleRows (h : zeroLine? D.rowPeaks = none) :
    (D.scaleRows (powers power e)).halfScaled = D.halfScaled := by
  ext i j
  rw [halfScaled, get_scaleRows, rowFactors_scaleRows hpower h, get_scaleRows, get_powers,
    halfScaled, get_scaleRows, hpower.mul_mul_power, hpower.mul_power_mul,
    hpower.mul_power_mul_power, add_neg_cancel, hpower.mul_power_zero]

/-- The scaled system is the same. -/
theorem equilibrate_scaleRows (D : Mat α n n) (e : Fin n → ℤ) :
    (D.scaleRows (powers power e)).equilibrate =
      D.equilibrate.map fun E => E.shiftRows power e := by
  rw [equilibrate_eq, equilibrate_eq, zeroLine?_rowPeaks_scaleRows hpower]
  cases h : zeroLine? D.rowPeaks with
  | some i => rfl
  | none =>
    have hpeaks : (D.scaleRows (powers power e)).columnPeaks = D.columnPeaks := by
      rw [columnPeaks, halfScaled_scaleRows hpower h, columnPeaks]
    rw [hpeaks]
    cases zeroLine? D.columnPeaks with
    | some j => rfl
    | none =>
      have hfactors : (D.scaleRows (powers power e)).rowFactors =
          Vector.ofFn fun i => D.rowFactors.get i * power (-e i) := by
        ext i hi
        simpa [Vector.get] using rowFactors_scaleRows hpower h (e := e) ⟨i, hi⟩
      simp only [Except.map, equilibrated, Equilibrated.shiftRows, halfScaled_scaleRows hpower h,
        columnFactors, hpeaks, hfactors]

/-- Scaling the rows of a matrix by powers of two scales the columns of its inverse by the inverse
powers, and it changes no error, whatever solves the scaled system and finds it singular. -/
theorem invertWith_scaleRows (solve : Mat α n n → Except SystemError (Mat α n n)) (D : Mat α n n)
    (e : Fin n → ℤ) :
    (D.scaleRows (powers power e)).invertWith solve =
      (D.invertWith solve).map fun X => X.scaleColumns (powers power (-e)) := by
  rcases Nat.eq_zero_or_pos n with hn | hn
  · rw [invertWith, if_pos hn, invertWith, if_pos hn]
    rfl
  cases h : D.equilibrate with
  | error line =>
    -- powers change no peak to or from zero, so the same line is named
    have hscaled : (D.scaleRows (powers power e)).equilibrate = .error line := by
      rw [equilibrate_scaleRows hpower, h]
      rfl
    rw [invertWith_of_error hn h, invertWith_of_error hn hscaled]
    rfl
  | ok E =>
    -- the factors of the rows take the powers back: the solve is given the very same system
    have hscaled : (D.scaleRows (powers power e)).equilibrate = .ok
        ⟨E.scaled, Vector.ofFn fun i => E.rowFactors.get i * power (-e i), E.columnFactors⟩ := by
      rw [equilibrate_scaleRows hpower, h]
      rfl
    rw [invertWith_of_ok hn h, invertWith_of_ok hn hscaled]
    by_cases hfinite : E.scaled.isFinite = true
    · rw [if_pos hfinite, if_pos hfinite]
      cases solve E.scaled with
      | error e => rfl
      | ok X =>
        have hback : (X.scaleRows E.columnFactors).scaleColumns
              (Vector.ofFn fun i => E.rowFactors.get i * power (-e i)) =
            ((X.scaleRows E.columnFactors).scaleColumns E.rowFactors).scaleColumns
              (powers power (-e)) := by
          ext i j
          rw [get_scaleColumns, get_vectorOfFn, hpower.mul_mul_power, get_scaleColumns, get_powers,
            Pi.neg_apply, get_scaleColumns]
        simp only [hback, isFinite_scaleColumns hpower]
        split_ifs <;> rfl
    · rw [if_neg hfinite, if_neg hfinite]
      rfl

end Mat

/-! ### Exact arithmetic -/

section Exact

variable {K : Type} [Field K] [LinearOrder K] [IsStrictOrderedRing K] [FloorSemiring K]
variable [Precision K] [ExactPrecision K] [ExactNormalizer K]

/-- Powers of two scale exactly in a field in which they are taken exactly. -/
lemma exactScaling_zpow : ExactScaling fun k : ℤ => (2 : K) ^ k where
  mul_power_zero a := by rw [zpow_zero, mul_one]
  mul_power_mul_power a k l := by rw [mul_assoc, zpow_add₀ two_ne_zero]
  zero_mul_power k := zero_mul _
  neg_mul_power a k := neg_mul _ _
  mul_mul_power a b k := (mul_assoc a b _).symm
  mul_power_mul a b k := mul_right_comm a _ b
  mul_power_lt_iff a b k := mul_lt_mul_iff_left₀ (zpow_pos two_pos k)
  mul_power_beq a b k := by
    rw [Bool.eq_iff_iff, beq_iff_eq, beq_iff_eq, mul_left_inj' (zpow_ne_zero k two_ne_zero)]
  isFinite_mul_power a k := by rw [ExactPrecision.isFinite_eq_true, ExactPrecision.isFinite_eq_true]
  normalizer_mul_power a k h := by
    have ha := h.resolve_right (by simp [isProper_eq_true])
    rw [ExactNormalizer.normalizer_eq a ha,
      ExactNormalizer.normalizer_eq _ (mul_pos ha (zpow_pos two_pos k)), log_mul_two_zpow ha,
      neg_add, zpow_add₀ two_ne_zero]
  zero_beq := by simp
  pos_trans a b := lt_trans

end Exact

/-- Rows scaled far apart are brought back before elimination. -/
theorem invertWith_scaleRows_misscaled :
    (misscaled.scaleRows (powers (2 ^ ·) ![40, -60, 0])).invertWith Mat.eliminate =
      (misscaled.invertWith Mat.eliminate).map fun X =>
        X.scaleColumns (powers (2 ^ ·) (-![40, -60, 0])) :=
  Mat.invertWith_scaleRows exactScaling_zpow Mat.eliminate misscaled ![40, -60, 0]

end Workforce
