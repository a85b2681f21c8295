import Workforce.Proofs.Number.Addition

/-!
# Rounded arithmetic

What rounding leaves of the laws of ordered fields, for numbers that are not negative: products and
quotients are not negative where they are defined, sums are monotone, and adding does not decrease.
Binary32 numbers satisfy these laws.
-/

namespace Workforce

/-- Arithmetic that rounds, as far as numbers that are not negative are concerned. A product or a
quotient may be undefined; then nothing is asked of it. -/
class RoundedArithmetic (α : Type) [Zero α] [One α] [Add α] [Mul α] [Div α] [Neg α] [LT α] [LE α]
    [BEq α] : Prop where
  zero_le_zero : (0 : α) ≤ 0
  zero_le_one : (0 : α) ≤ 1
  le_trans {a b c : α} (ha : 0 ≤ a) (hab : a ≤ b) (hbc : b ≤ c) : a ≤ c
  zero_le_of_pos {a : α} (ha : 0 < a) : 0 ≤ a
  zero_le_neg {a : α} (ha : a < 0) : 0 ≤ -a
  zero_le_mul {a b : α} (ha : 0 ≤ a) (hb : 0 ≤ b) (hproper : isProper (a * b) = true) : 0 ≤ a * b
  zero_le_div {a b : α} (ha : 0 ≤ a) (hb : 0 ≤ b) (hb' : ¬ b ≤ 0)
    (hproper : isProper (a / b) = true) : 0 ≤ a / b
  add_le_add_right {a b c : α} (ha : 0 ≤ a) (hab : a ≤ b) (hc : 0 ≤ c) : a + c ≤ b + c
  le_add {a b : α} (ha : 0 ≤ a) (hb : 0 ≤ b) : a ≤ a + b

lemma RoundedArithmetic.zero_le_add {α : Type} [Zero α] [One α] [Add α] [Mul α] [Div α] [Neg α]
    [LT α] [LE α] [BEq α] [RoundedArithmetic α] {a b : α} (ha : 0 ≤ a) (hb : 0 ≤ b) : 0 ≤ a + b :=
  le_trans zero_le_zero ha (le_add ha hb)

/-! ### Binary32 numbers -/

open Float.Model Float.Model.UnpackedFloat

variable {spec : Format} {u v w : UnpackedFloat}

/-- A number that is not negative once it is stored, unless it is undefined. -/
def IsUnsigned (w : UnpackedFloat) : Prop := HasNoMinus w ∨ ∃ s, w = .zero s

namespace MagnitudeIn

lemma mul_isUnsigned (hu : MagnitudeIn spec u) (hv : MagnitudeIn spec v) :
    IsUnsigned (UnpackedFloat.mul spec u v) := by
  cases hu with
  | zero s =>
    cases hv with
    | zero s' => exact .inr ⟨_, rfl⟩
    | finite h' => exact .inr ⟨_, rfl⟩
    | infinity => exact .inl trivial
  | finite h =>
    cases hv with
    | zero s => exact .inr ⟨_, rfl⟩
    | finite h' => exact .inl (HasNoMinus.roundWithAccuracy _ _ _)
    | infinity => exact .inl rfl
  | infinity =>
    cases hv with
    | zero s => exact .inl trivial
    | finite h' => exact .inl rfl
    | infinity => exact .inl rfl

lemma div_isUnsigned (hu : MagnitudeIn spec u) (hv : MagnitudeIn spec v) (hpos : 0 < extent v) :
    IsUnsigned (UnpackedFloat.div spec u v) := by
  cases hv with
  | zero s => exact absurd hpos (lt_irrefl 0)
  | finite h' =>
    cases hu with
    | zero s => exact .inr ⟨_, rfl⟩
    | finite h => exact .inl (HasNoMinus.roundWithAccuracy _ _ _)
    | infinity => exact .inl rfl
  | infinity =>
    cases hu with
    | zero s => exact .inr ⟨_, rfl⟩
    | finite h => exact .inr ⟨_, rfl⟩
    | infinity => exact .inl trivial

end MagnitudeIn

namespace Single

variable {a b : Float32}

lemma zero_le_of_hasNoMinus (h : HasNoMinus a.toModel.unpack) (ha : isProper a = true) : 0 ≤ a := by
  rw [isProper_iff] at ha
  rw [le_iff, unpack_zero]
  cases hu : a.toModel.unpack with
  | notANumber => exact absurd hu ha
  | zero s => rfl
  | infinity s =>
    rw [hu] at h
    obtain rfl : s = .positive := h
    rfl
  | finite s m e hm =>
    rw [hu] at h
    obtain rfl : s = .positive := h
    rfl

lemma zero_le_of_stored (h : IsUnsigned w) (ha : isProper a = true)
    (hstored : a.toModel.unpack =
      UnpackedFloat.unpack .binary32 (UnpackedFloat.pack .binary32 w)) : 0 ≤ a := by
  obtain h | ⟨s, rfl⟩ := h
  · exact zero_le_of_hasNoMinus (hstored ▸ h.stored) ha
  · rw [zero_le_iff, hstored, unpack_packed_zero]
    exact .zero s

lemma le_of_lt (h : a < b) : a ≤ b := by
  rw [lt_iff, UnpackedFloat.lt, beq_iff_eq] at h
  rw [le_iff, UnpackedFloat.le, h]
  rfl

/-- What is not below a number that is not negative is not negative. -/
lemma zero_le_of_le (ha : 0 ≤ a) (hab : a ≤ b) : 0 ≤ b := by
  rw [zero_le_iff] at ha
  rw [le_iff] at hab ⊢
  rw [unpack_zero]
  generalize a.toModel.unpack = u at ha hab
  generalize b.toModel.unpack = v at hab ⊢
  cases ha <;> rcases v with (_ | _) | _ | _ | ⟨_ | _, m, e, hm⟩ <;> first | rfl | cases hab

lemma zero_le_neg (ha : a < 0) : 0 ≤ -a := by
  have hneg : -a = magnitude a := by rw [magnitude, if_pos ha]
  rw [zero_le_iff, hneg]
  exact magnitudeIn_magnitude (isProper_of_le (le_of_lt ha)).1

instance instRoundedArithmeticFloat32 : RoundedArithmetic Float32 where
  zero_le_zero := zero_le_iff.mpr (.zero .positive)
  zero_le_one := by decide +kernel
  le_trans ha hab hbc := by
    have hb := zero_le_of_le ha hab
    have hc := zero_le_of_le hb hbc
    rw [le_iff_size_le ha hc]
    exact ((le_iff_size_le ha hb).mp hab).trans ((le_iff_size_le hb hc).mp hbc)
  zero_le_of_pos := le_of_lt
  zero_le_neg := zero_le_neg
  zero_le_mul ha hb hproper :=
    zero_le_of_stored ((zero_le_iff.mp ha).mul_isUnsigned (zero_le_iff.mp hb)) hproper rfl
  zero_le_div ha hb hb' hproper :=
    zero_le_of_stored ((zero_le_iff.mp ha).div_isUnsigned (zero_le_iff.mp hb)
      ((not_le_zero_iff hb).mp hb')) hproper rfl
  add_le_add_right ha hab hc := by
    have hb := zero_le_of_le ha hab
    rw [le_iff_size_le (zero_le_add ha hc) (zero_le_add hb hc)]
    exact size_add_mono ha hc hb hc ((le_iff_size_le ha hb).mp hab) le_rfl
  le_add ha hb := (le_iff_size_le ha (zero_le_add ha hb)).mpr (size_le_size_add ha hb).1

end Single

end Workforce
