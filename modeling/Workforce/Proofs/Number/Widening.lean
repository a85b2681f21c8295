import Workforce.Proofs.Number.RealQuantity
import Workforce.Proofs.Number.RoundedArithmetic

/-!
# Entries that are read as scalars

An entry that is read as a scalar is rounded to binary64 and stored. The least positive binary64
number is far below every positive entry, so only zeros are read as zeros.
-/

namespace Workforce

open Float.Model Float.Model.UnpackedFloat

variable {spec : Format} {u w : UnpackedFloat} {x : WithTop ℚ} {a : Float32}

/-- Rounding gives zero up to half of the least positive number. -/
lemma RoundsTo.extent_eq_zero_iff (h : RoundsTo spec x w) :
    extent w = 0 ↔ x ≤ (2 ^ (spec.minExponent - 1) : ℚ) := by
  have hpos : (0 : ℚ) < 2 ^ (spec.minExponent - 1) := by positivity
  cases h with
  | zero s => exact iff_of_true rfl (WithTop.coe_le_coe.mpr hpos.le)
  | finite hm he =>
    rw [WithTop.coe_le_coe]
    exact extent_roundWithAccuracy_eq_zero_iff .positive hm he
  | infinity => exact iff_of_false WithTop.top_ne_zero (WithTop.coe_lt_top _).not_ge

namespace MagnitudeIn

lemma extent_eq_zero_iff (h : MagnitudeIn spec u) : extent u = 0 ↔ ∃ s, u = .zero s := by
  cases h with
  | zero s => simp
  | finite h => exact iff_of_false (extent_finite_pos _ h.pos).ne' (by simp)
  | infinity => exact iff_of_false WithTop.top_ne_zero (by simp)

/-- The least positive number of a format. -/
lemma eq_zero_of_extent_lt (h : MagnitudeIn spec u)
    (hlt : extent u < (2 ^ spec.minExponent : ℚ)) : extent u = 0 := by
  cases h with
  | zero s => rfl
  | @finite m e h =>
    have hone : (1 : ℚ) ≤ m := by exact_mod_cast h.pos
    have hmin : (2 : ℚ) ^ spec.minExponent ≤ 2 ^ e := zpow_le_zpow_right₀ one_le_two h.le_exponent
    have hle : (2 : ℚ) ^ e ≤ m * 2 ^ e := le_mul_of_one_le_left (zpow_pos two_pos e).le hone
    exact absurd (WithTop.coe_lt_coe.mp hlt) (hmin.trans hle).not_gt
  | infinity => exact absurd hlt not_top_lt

/-- Storing makes no number zero. -/
lemma extent_stored_eq_zero_iff (h : MagnitudeIn spec u) :
    extent (UnpackedFloat.unpack spec (UnpackedFloat.pack spec u)) = 0 ↔ extent u = 0 := by
  constructor
  · intro hstored
    exact le_antisymm (hstored ▸ h.extent_le_extent_stored) (extent_nonneg u)
  · intro hu
    obtain ⟨s, rfl⟩ := h.extent_eq_zero_iff.mp hu
    rw [unpack_packed_zero, extent_zero]

lemma roundsTo_widened (h : MagnitudeIn spec u) : RoundsTo .binary64 (extent u) (widened u) := by
  cases h with
  | zero s => exact .zero s
  | @finite m e h =>
    obtain ⟨m', e', hm', he', hvalue, hround⟩ := exists_round_eq .binary64 .positive h.pos e
    rw [widened, hround, extent_finite, ← hvalue]
    exact .finite hm' he'
  | infinity => exact .infinity

end MagnitudeIn

namespace Single

lemma real_widen_beq_zero_iff (ha : 0 ≤ a) :
    (Quantity.real (widen a) == 0) = true ↔ (a == 0) = true := by
  have hmagnitude := zero_le_iff.mp ha
  have hwidened := hmagnitude.roundsTo_widened
  have hstored := hwidened.magnitudeIn.stored
  rw [Quantity.real_beq_zero_iff, beq_zero_iff_of_zero_le ha, unpack_widen,
    ← hstored.stored.extent_eq_zero_iff, hstored.extent_stored_eq_zero_iff,
    hwidened.magnitudeIn.extent_stored_eq_zero_iff, hwidened.extent_eq_zero_iff]
  constructor
  · intro hle
    refine hmagnitude.eq_zero_of_extent_lt (hle.trans_lt (WithTop.coe_lt_coe.mpr ?_))
    exact zpow_lt_zpow_right₀ one_lt_two (by decide)
  · intro hzero
    rw [show extent a.toModel.unpack = 0 from hzero]
    exact WithTop.coe_le_coe.mpr (by positivity)

namespace IsSquareSum

/-- Only a sum of squares that is zero is read as zero. -/
lemma real_widen_beq_zero_iff (ha : IsSquareSum a) :
    (Quantity.real (widen a) == 0) = true ↔ (a == 0) = true := by
  have hnonneg (h : a.isFinite = true) : 0 ≤ a := zero_le_of_hasNoMinus ha (isProper_of_isFinite h)
  constructor
  · intro h
    obtain ⟨s, hs⟩ := Quantity.real_beq_zero_iff.mp h
    have hfinite : (widen a).toModel.unpack.isFinite = true := by rw [hs]; rfl
    exact (Single.real_widen_beq_zero_iff (hnonneg (isFinite_of_isFinite_widen hfinite))).mp h
  · intro h
    exact (Single.real_widen_beq_zero_iff (hnonneg (isFinite_of_beq_zero h))).mpr h

lemma not_real_widen_lt_zero (ha : IsSquareSum a) : ¬ Quantity.real (widen a) < 0 := by
  rw [Quantity.real_lt_zero, float_lt_iff, Quantity.unpack_zero]
  exact ha.hasNoMinus_widen.not_lt_zero

end IsSquareSum

end Single

end Workforce
