import Workforce.Proofs.Number.Packing

/-!
# Products with a factor below one

Multiplying a number with a factor between zero and one, and rounding, never increases it. It need
not decrease it either: an infinite number stays infinite, and a number with few bits may round to
itself. A finite number above the least normal one does decrease, and so does every finite number
if the factor is at most one half.
-/

namespace Workforce

open Float.Model Float.Model.UnpackedFloat

variable {a b s : Float} {m k : ℕ} {e c : ℤ}

/-! ### Numbers that are not negative -/

/-- A number that is not negative. -/
def NotNegative (a : Float) : Prop := Unsigned a.toModel.unpack

/-- The extent of a number. -/
def size (a : Float) : WithTop ℚ := extent a.toModel.unpack

lemma float_le_iff : a ≤ b ↔ a.toModel.unpack.le b.toModel.unpack = true := by
  change decide (a.toModel ≤ b.toModel) = true ↔ _
  rw [decide_eq_true_iff]
  rfl

lemma NotNegative.lt_iff (ha : NotNegative a) (hb : NotNegative b) : a < b ↔ size a < size b :=
  float_lt_iff.trans (Unsigned.lt_iff ha hb)

lemma NotNegative.le_iff (ha : NotNegative a) (hb : NotNegative b) : a ≤ b ↔ size a ≤ size b :=
  float_le_iff.trans (Unsigned.le_iff ha hb)

lemma NotNegative.eq_of_size_eq (ha : NotNegative a) (hb : NotNegative b)
    (h : size a = size b) : a = b := by
  have hunpack : a.toModel.unpack = b.toModel.unpack := Unsigned.eq_of_extent_eq ha hb h
  have hmodel : a.toModel = b.toModel := by
    rw [← pack_unpack a.toModel, hunpack, pack_unpack]
  cases a
  cases b
  exact congrArg Float.ofModel hmodel

lemma NotNegative.unpack_eq (ha : NotNegative a) :
    a.toModel.unpack = .zero .positive ∨
      (∃ k c, ∃ h : Canonical k c, c ≤ 971 ∧ a.toModel.unpack = .finite .positive k c h.pos) ∨
      a.toModel.unpack = .infinity .positive := by
  rw [NotNegative] at ha
  cases hu : a.toModel.unpack with
  | zero =>
    rw [hu] at ha
    cases ha
    exact .inl rfl
  | finite =>
    rw [hu] at ha
    cases ha with
    | finite h => exact .inr (.inl ⟨_, _, h, (canonical_of_unpack hu).2, rfl⟩)
  | infinity =>
    rw [hu] at ha
    cases ha
    exact .inr (.inr rfl)
  | notANumber =>
    rw [hu] at ha
    cases ha

lemma float_le_of_lt (hab : a < b) : a ≤ b := by
  rw [float_lt_iff, UnpackedFloat.lt, beq_iff_eq] at hab
  rw [float_le_iff, UnpackedFloat.le, hab]
  rfl

/-- A number that is not below a positive one is positive. -/
lemma Unsigned.positive_of_le {u v : UnpackedFloat} (hu : Unsigned u) (hpos : 0 < extent u)
    (huv : u.le v = true) :
    (∃ m e h, v = .finite .positive m e h) ∨ v = .infinity .positive := by
  rcases v with (_ | _) | _ | _ | ⟨_ | _, m, e, h⟩
  case infinity.positive => exact .inr rfl
  case finite.positive => exact .inl ⟨m, e, h, rfl⟩
  all_goals
    cases hu with
    | zero => exact absurd hpos (lt_irrefl 0)
    | finite => cases huv
    | infinity => cases huv

lemma NotNegative.of_le (ha : NotNegative a) (hpos : 0 < size a) (hab : a ≤ b) :
    NotNegative b := by
  rw [NotNegative]
  obtain ⟨m, e, h, hb⟩ | hb := ha.positive_of_le hpos (float_le_iff.mp hab)
  · rw [hb]
    exact .finite (canonical_of_unpack hb).1
  · rw [hb]
    exact .infinity

lemma size_ne_top (h : a.isFinite = true) : size a ≠ ⊤ := by
  change a.toModel.unpack.isFinite = true at h
  rw [size]
  cases hu : a.toModel.unpack with
  | infinity s =>
    rw [hu] at h
    cases h
  | finite s m e hm => exact WithTop.coe_ne_top
  | zero s => exact WithTop.zero_ne_top
  | notANumber => exact WithTop.zero_ne_top

section

variable (h : Canonical m e) (ha : a.toModel.unpack = .finite .positive m e h.pos)
include ha

lemma notNegative_of_unpack_eq : NotNegative a := by
  rw [NotNegative, ha]
  exact .finite h

lemma size_of_unpack_eq : size a = (m * 2 ^ e : ℚ) := by rw [size, ha, extent_finite]

end

/-- The least normal number, `2 ^ (-1022)`. Smaller numbers have fewer than 53 bits. -/
def leastNormal : Float := .ofBits 0x0010000000000000

lemma unpack_leastNormal : leastNormal.toModel.unpack =
    .finite .positive (2 ^ 52) (-1074) (Nat.two_pow_pos 52) := rfl

lemma notNegative_leastNormal : NotNegative leastNormal :=
  notNegative_of_unpack_eq (canonical_two_pow le_rfl) unpack_leastNormal

lemma size_leastNormal : size leastNormal = ((2 ^ (-1022 : ℤ) : ℚ) : WithTop ℚ) := by
  rw [size_of_unpack_eq (canonical_two_pow le_rfl) unpack_leastNormal, two_pow_mul_zpow]
  rfl

lemma unpack_half : (0.5 : Float).toModel.unpack =
    .finite .positive (2 ^ 52) (-53) (Nat.two_pow_pos 52) := rfl

lemma notNegative_half : NotNegative 0.5 :=
  notNegative_of_unpack_eq (canonical_two_pow (by norm_num)) unpack_half

lemma size_half : size 0.5 = ((1 / 2 : ℚ) : WithTop ℚ) := by
  rw [size_of_unpack_eq (canonical_two_pow (by norm_num)) unpack_half, WithTop.coe_inj]
  norm_num

/-! ### Factors -/

/-- A factor between zero and one. -/
def IsShrinking (s : Float) : Prop :=
  ∃ m e, ∃ h : Canonical m e, s.toModel.unpack = .finite .positive m e h.pos ∧ (m * 2 ^ e : ℚ) < 1

lemma IsShrinking.notNegative (hs : IsShrinking s) : NotNegative s := by
  obtain ⟨m, e, h, hs, -⟩ := hs
  exact notNegative_of_unpack_eq h hs

/-- The greatest factor below one lacks a unit of its last bit. -/
lemma Canonical.le_of_lt_one (h : Canonical m e) (hlt : (m * 2 ^ e : ℚ) < 1) :
    (m * 2 ^ e : ℚ) ≤ 1 - 2 ^ (-53 : ℤ) := by
  have he : e ≤ -53 := by
    by_contra! hgt
    have hone : (1 : ℚ) ≤ m * 2 ^ e :=
      calc (1 : ℚ) = 2 ^ (0 : ℤ) := (zpow_zero 2).symm
        _ ≤ 2 ^ (52 + e) := zpow_le_zpow_right₀ one_le_two (by omega)
        _ ≤ m * 2 ^ e := h.zpow_le (by omega)
    exact hlt.not_ge hone
  have hm : (m : ℚ) ≤ 2 ^ 53 - 1 := by
    have := h.lt
    have hm : m + 1 ≤ 2 ^ 53 := by omega
    rw [le_sub_iff_add_le]
    exact_mod_cast hm
  calc (m * 2 ^ e : ℚ) ≤ (2 ^ 53 - 1) * 2 ^ (-53 : ℤ) := by gcongr; exact one_le_two
    _ = 1 - 2 ^ (-53 : ℤ) := by norm_num

lemma Canonical.le_lastExponent_mul (h : Canonical k c) (h' : Canonical m e) :
    c + e ≤ lastExponent (k * m) (c + e) :=
  h.canonicalIn.le_lastExponentIn_mul h'.canonicalIn

lemma Canonical.pos_mul (h : Canonical k c) : (0 : ℚ) < k * 2 ^ c := h.canonicalIn.pos_mul

/-! ### Products -/

/-- Storing a rounded number that is not above a stored one does not change it. -/
lemma unpack_pack_of_extent_le {u : UnpackedFloat} (hu : Unsigned u) (h : Canonical k c)
    (hc : c ≤ 971) (hle : extent u ≤ (k * 2 ^ c : ℚ)) :
    (Float.Model.pack u).unpack = u := by
  cases hu with
  | zero => rfl
  | @finite m e h' =>
    refine unpack_pack_finite h' ?_
    by_contra! he
    rw [extent_finite, WithTop.coe_le_coe] at hle
    exact hle.not_gt (h.lt_of_exponent_lt h' (by omega))
  | infinity => rfl

lemma toModel_mul (a b : Float) : (a * b).toModel =
    Float.Model.pack (UnpackedFloat.mul Format.binary64 a.toModel.unpack b.toModel.unpack) := rfl

lemma unpack_mul_zero (hs : IsShrinking s) (ha : a.toModel.unpack = .zero .positive) :
    (a * s).toModel.unpack = .zero .positive := by
  obtain ⟨m, e, h, hs, -⟩ := hs
  have hmul : (a * s).toModel = Float.Model.pack (.zero .positive) := by
    rw [toModel_mul, ha, hs]
    rfl
  rw [hmul]
  rfl

lemma unpack_mul_infinity (hs : IsShrinking s) (ha : a.toModel.unpack = .infinity .positive) :
    (a * s).toModel.unpack = .infinity .positive := by
  obtain ⟨m, e, h, hs, -⟩ := hs
  have hmul : (a * s).toModel = Float.Model.pack (.infinity .positive) := by
    rw [toModel_mul, ha, hs]
    rfl
  rw [hmul]
  rfl

section

variable (h : Canonical k c) (hc : c ≤ 971) (h' : Canonical m e) (hlt : (m * 2 ^ e : ℚ) < 1)
variable (ha : a.toModel.unpack = .finite .positive k c h.pos)
variable (hs : s.toModel.unpack = .finite .positive m e h'.pos)
include hc hlt ha hs

/-- The product of a finite number and a factor is their exact product, rounded. -/
lemma unpack_mul_finite : (a * s).toModel.unpack = roundUnsigned (k * m) (c + e) := by
  have hmul : (a * s).toModel = Float.Model.pack (roundUnsigned (k * m) (c + e)) := by
    rw [toModel_mul, ha, hs]
    rfl
  have hprod := Nat.mul_pos h.pos h'.pos
  have hbits := h.le_lastExponent_mul h'
  rw [hmul]
  refine unpack_pack_of_extent_le (roundUnsigned_spec hprod hbits).1 h hc
    (h.extent_roundUnsigned_le hprod hbits ?_)
  rw [mul_zpow_add]
  exact mul_le_of_le_one_right h.pos_mul.le hlt.le

end

namespace IsShrinking

/-- A product with a factor is not negative, and not above the number. -/
lemma size_mul_le (hs : IsShrinking s) (ha : NotNegative a) :
    NotNegative (a * s) ∧ size (a * s) ≤ size a := by
  rw [NotNegative, size, size]
  obtain hzero | ⟨k, c, h, hc, hfinite⟩ | hinfinite := ha.unpack_eq
  · rw [unpack_mul_zero hs hzero, hzero]
    exact ⟨.zero, le_rfl⟩
  · obtain ⟨m, e, h', hs, hlt⟩ := hs
    have hprod := Nat.mul_pos h.pos h'.pos
    have hbits := h.le_lastExponent_mul h'
    rw [unpack_mul_finite h hc h' hlt hfinite hs, hfinite]
    refine ⟨(roundUnsigned_spec hprod hbits).1, h.extent_roundUnsigned_le hprod hbits ?_⟩
    rw [mul_zpow_add]
    exact mul_le_of_le_one_right h.pos_mul.le hlt.le
  · rw [unpack_mul_infinity hs hinfinite, hinfinite]
    exact ⟨.infinity, le_rfl⟩

/-- Multiplying with a factor is monotone. -/
lemma size_mul_mono (hs : IsShrinking s) (ha : NotNegative a) (hb : NotNegative b)
    (hab : size a ≤ size b) : size (a * s) ≤ size (b * s) := by
  obtain hb | ⟨k', c', hk', hc', hb⟩ | hb := hb.unpack_eq
  · -- nothing is below zero
    have hzero : size b = 0 := by rw [size, hb, extent_zero]
    have hmul : size (b * s) = 0 := by rw [size, unpack_mul_zero hs hb, extent_zero]
    rw [hmul, ← hzero]
    exact (hs.size_mul_le ha).2.trans hab
  · rw [size, size, hb] at hab
    rw [size, size]
    obtain ha | ⟨k, c, hk, hc, ha⟩ | ha := ha.unpack_eq
    · rw [unpack_mul_zero hs ha]
      exact extent_nonneg _
    · obtain ⟨m, e, h, hs, hlt⟩ := hs
      rw [ha, extent_finite, extent_finite, WithTop.coe_le_coe] at hab
      rw [unpack_mul_finite hk hc h hlt ha hs, unpack_mul_finite hk' hc' h hlt hb hs]
      refine extent_roundUnsigned_mono (Nat.mul_pos hk.pos h.pos) (hk.le_lastExponent_mul h)
        (Nat.mul_pos hk'.pos h.pos) (hk'.le_lastExponent_mul h) ?_
      rw [mul_zpow_add, mul_zpow_add]
      gcongr
    · rw [ha] at hab
      exact absurd hab (WithTop.coe_lt_top _).not_ge
  · rw [size, size, unpack_mul_infinity hs hb]
    exact le_top

/-- A finite number decreases, if it is above the least normal one or the factor is at most one
half. -/
lemma size_mul_lt (hs : IsShrinking s) (ha : NotNegative a) (hpos : 0 < size a) (htop : size a ≠ ⊤)
    (hdecreases : size leastNormal < size a ∨ size s ≤ size 0.5) :
    size (a * s) < size a := by
  obtain ha | ⟨k, c, hk, hc, ha⟩ | ha := ha.unpack_eq
  · exact absurd hpos (by rw [size, ha]; exact lt_irrefl 0)
  · obtain ⟨m, e, h, hs, hlt⟩ := hs
    have hone := h.le_of_lt_one hlt
    have hprod := Nat.mul_pos hk.pos h.pos
    have hbits := hk.le_lastExponent_mul h
    rw [size_leastNormal, size_half, size_of_unpack_eq hk ha, size_of_unpack_eq h hs,
      WithTop.coe_lt_coe, WithTop.coe_le_coe] at hdecreases
    rw [size_of_unpack_eq hk ha, size, unpack_mul_finite hk hc h hlt ha hs]
    -- above the least normal number a unit of the last place is small enough not to be rounded back
    rcases hdecreases with hnormal | hhalf
    · refine hk.extent_roundUnsigned_lt hprod hbits ?_ hnormal
      rw [mul_zpow_add]
      gcongr
    · refine hk.extent_roundUnsigned_lt_of_half hprod hbits ?_
      rw [mul_zpow_add]
      gcongr
  · exact absurd (by rw [size, ha, extent_infinity]) htop

end IsShrinking

end Workforce
