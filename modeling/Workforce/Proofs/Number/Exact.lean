import Mathlib.Algebra.Order.Group.Unbundled.Abs
import Mathlib.Algebra.Order.Ring.Abs
import Workforce.Number.Order

/-!
# Order on exact numbers

On a linear order every number equals itself and any two compare, so `larger` and `magnitude` are
the maximum and the absolute value, and `peak` is zero on zeros only.
-/

namespace Workforce

variable {K : Type} [LinearOrder K]

lemma isProper_eq_true (a : K) : isProper a = true := by simp [isProper]

lemma larger_eq_max (a b : K) : larger a b = max a b := by
  rcases lt_or_ge a b with h | h
  · rw [larger_of_lt h, max_eq_right h.le]
  · rw [larger_of_not_lt h.not_gt, max_eq_left h]

lemma smaller_eq_min (a b : K) : smaller a b = min a b := by
  rcases lt_or_ge b a with h | h
  · rw [smaller_of_lt h, min_eq_right h.le]
  · rw [smaller_of_not_lt h.not_gt, min_eq_left h]

lemma magnitude_eq_abs [AddCommGroup K] [IsOrderedAddMonoid K] (a : K) : magnitude a = |a| := by
  rcases lt_or_ge a 0 with h | h
  · simp [magnitude, h, abs_of_neg h]
  · simp [magnitude, h.not_gt, abs_of_nonneg h]

lemma peak_eq_foldl_max [Zero K] (as : List K) : peak as = as.foldl max 0 := by
  simp [peak, isProper_eq_true, larger_eq_max]

/-- The peak is the greatest of the numbers and zero. -/
lemma peak_spec [Zero K] (as : List K) : peak as ∈ 0 :: as ∧ ∀ a ∈ 0 :: as, a ≤ peak as := by
  rw [peak_eq_foldl_max, ← List.max?_eq_some_iff]
  rfl

/-- The peak of absolute values is zero when all the numbers are. -/
lemma peak_magnitude_eq_zero_iff [AddCommGroup K] [IsOrderedAddMonoid K] (as : List K) :
    peak (as.map magnitude) = 0 ↔ ∀ a ∈ as, a = 0 := by
  obtain ⟨hmem, hle⟩ := peak_spec (as.map magnitude)
  constructor
  · intro hzero a ha
    have habs := hle (magnitude a) (List.mem_cons_of_mem 0 (List.mem_map_of_mem ha))
    rwa [hzero, magnitude_eq_abs, abs_nonpos_iff] at habs
  · intro hzero
    rw [List.mem_cons, List.mem_map] at hmem
    rcases hmem with hpeak | ⟨a, ha, hpeak⟩
    · exact hpeak
    · rw [← hpeak, hzero a ha, magnitude_eq_abs, abs_zero]

end Workforce
