import Workforce.Proofs.Number.Canonical
import Workforce.Proofs.Number.FloatOrder

/-!
# Extents

Numbers that are not negative are ordered by their extent, which is a rational number or infinite.
Rounding is monotone in the extent. It stays below a canonical number where that is not nearer than
the number before it.
-/

namespace Workforce

open Float.Model Float.Model.UnpackedFloat

/-- The rational number that a number stands for, without its sign, or `⊤` for an infinite one. -/
def extent : UnpackedFloat → WithTop ℚ
  | .infinity _ => ⊤
  | .finite _ m e _ => (m * 2 ^ e : ℚ)
  | _ => 0

variable {spec : Format} {a b : UnpackedFloat} {m m' k : ℕ} {e e' c : ℤ}

lemma extent_finite (s : Sign) (h : 0 < m) :
    extent (.finite s m e h) = (m * 2 ^ e : ℚ) := rfl

@[simp] lemma extent_zero (s : Sign) : extent (.zero s) = 0 := rfl

@[simp] lemma extent_infinity (s : Sign) : extent (.infinity s) = ⊤ := rfl

lemma extent_nonneg (a : UnpackedFloat) : 0 ≤ extent a := by
  cases a with
  | finite s m e h =>
    have hnonneg : (0 : ℚ) ≤ m * 2 ^ e := by positivity
    exact WithTop.coe_nonneg.mpr hnonneg
  | infinity s => exact le_top
  | zero s => exact le_rfl
  | notANumber => exact le_rfl

lemma extent_finite_pos (s : Sign) (h : 0 < m) : 0 < extent (.finite s m e h) := by
  have hpos : (0 : ℚ) < m * 2 ^ e := by positivity
  exact WithTop.coe_pos.mpr hpos

/-! ### Order -/

/-- A number of a format that is not negative. A zero may have either sign. -/
inductive MagnitudeIn (spec : Format) : UnpackedFloat → Prop
  | zero (s : Sign) : MagnitudeIn spec (.zero s)
  | finite {m : ℕ} {e : ℤ} (h : CanonicalIn spec m e) :
    MagnitudeIn spec (.finite .positive m e h.pos)
  | infinity : MagnitudeIn spec (.infinity .positive)

namespace MagnitudeIn

/-- Numbers that are not negative compare as their extents do. -/
lemma compare_eq (ha : MagnitudeIn spec a) (hb : MagnitudeIn spec b) :
    a.compare b = some (compare (extent a) (extent b)) := by
  cases ha with
  | zero s =>
    cases hb with
    | zero s' => exact congrArg some (compare_eq_iff_eq.mpr rfl).symm
    | finite h' => exact congrArg some (compare_lt_iff_lt.mpr (extent_finite_pos _ _)).symm
    | infinity => exact congrArg some (compare_lt_iff_lt.mpr (WithTop.coe_lt_top 0)).symm
  | @finite m e h =>
    cases hb with
    | zero s' => exact congrArg some (compare_gt_iff_gt.mpr (extent_finite_pos _ _)).symm
    | @finite m' e' h' =>
      rw [extent_finite, extent_finite, UnpackedFloat.compare]
      congr 1
      -- exponents are compared first, and then mantissas, which is the order of canonical numbers
      rcases lt_trichotomy (m * 2 ^ e : ℚ) (m' * 2 ^ e') with hlt | heq | hgt
      · rw [compare_lt_iff_lt.mpr (WithTop.coe_lt_coe.mpr hlt), then_eq_lt_iff]
        exact (h.lt_iff h').mp hlt
      · obtain ⟨rfl, rfl⟩ := h.eq_of_mul_eq h' heq
        simp
      · rw [compare_gt_iff_gt.mpr (WithTop.coe_lt_coe.mpr hgt), then_eq_gt_iff]
        exact (h'.lt_iff h).mp hgt |>.imp_right (And.imp_left Eq.symm)
    | infinity => exact congrArg some (compare_lt_iff_lt.mpr (WithTop.coe_lt_top _)).symm
  | infinity =>
    cases hb with
    | zero s' => exact congrArg some (compare_gt_iff_gt.mpr (WithTop.coe_lt_top 0)).symm
    | finite h' => exact congrArg some (compare_gt_iff_gt.mpr (WithTop.coe_lt_top _)).symm
    | infinity => exact congrArg some (compare_eq_iff_eq.mpr rfl).symm

lemma lt_iff (ha : MagnitudeIn spec a) (hb : MagnitudeIn spec b) :
    a.lt b = true ↔ extent a < extent b := by
  rw [UnpackedFloat.lt, ha.compare_eq hb, beq_iff_eq, Option.some.injEq, compare_lt_iff_lt]

lemma le_iff (ha : MagnitudeIn spec a) (hb : MagnitudeIn spec b) :
    a.le b = true ↔ extent a ≤ extent b := by
  rw [UnpackedFloat.le, ha.compare_eq hb, Option.any_some]
  exact Ordering.ne_gt_iff_isLE.symm.trans compare_le_iff_le

end MagnitudeIn

/-! ### Rounding in a format -/

lemma le_of_mul_zpow_le {x y : ℚ} (h : x * 2 ^ c ≤ y * 2 ^ c) : x ≤ y :=
  le_of_mul_le_mul_right h (zpow_pos two_pos c)

/-- Rounding gives the nearest multiple of the last bit that is kept. -/
lemma extent_roundWithAccuracy (s : Sign) (hm : 0 < m) (he : e ≤ lastExponentIn spec m e) :
    ∃ n, IsNearestEven (m * 2 ^ (e - lastExponentIn spec m e)) n ∧
      extent (roundWithAccuracy spec s m e .exact) = (n * 2 ^ lastExponentIn spec m e : ℚ) := by
  obtain ⟨n, hn, ⟨rfl, hround⟩ | ⟨m', e', h, hround, hcanonical, heq⟩⟩ :=
    roundWithAccuracy_eq s hm he
  · exact ⟨0, hn, by simp [hround]⟩
  · exact ⟨n, hn, by rw [hround, extent_finite, heq]⟩

/-- Rounding gives zero up to half of the least positive number. -/
lemma extent_roundWithAccuracy_eq_zero_iff (s : Sign) (hm : 0 < m)
    (he : e ≤ lastExponentIn spec m e) :
    extent (roundWithAccuracy spec s m e .exact) = 0 ↔
      (m * 2 ^ e : ℚ) ≤ 2 ^ (spec.minExponent - 1) := by
  obtain ⟨n, hn, hround⟩ := extent_roundWithAccuracy s hm he
  have hhalf : n = 0 ↔ (m * 2 ^ (e - lastExponentIn spec m e) : ℚ) ≤ 1 / 2 := by
    rw [← Nat.le_zero, hn 0, le_iff_lt_or_eq]
    simp
  have hscaled : (m * 2 ^ (e - lastExponentIn spec m e) : ℚ) ≤ 1 / 2 ↔
      (m * 2 ^ e : ℚ) ≤ 2 ^ (lastExponentIn spec m e - 1) := by
    rw [zpow_sub_one₀ two_ne_zero, mul_comm _ (2 : ℚ)⁻¹, ← one_div, ← mul_zpow_sub_mul m e
      (lastExponentIn spec m e), mul_le_mul_iff_left₀ (zpow_pos two_pos _)]
  have hzero : ((n * 2 ^ lastExponentIn spec m e : ℚ) : WithTop ℚ) = 0 ↔ n = 0 := by
    rw [WithTop.coe_eq_zero, mul_eq_zero_iff_right (zpow_ne_zero _ two_ne_zero), Nat.cast_eq_zero]
  rw [hround, hzero, hhalf]
  by_cases hlast : lastExponentIn spec m e = spec.minExponent
  · rw [hscaled, hlast]
  · -- the first of the bits that are kept is not below one
    have hfull := two_pow_le_mul_zpow hm hlast
    have hone : (1 : ℚ) ≤ (2 ^ spec.mantissaBitsWithoutImplicit : ℕ) := by
      exact_mod_cast Nat.one_le_two_pow
    have hnot : ¬ (m * 2 ^ (e - lastExponentIn spec m e) : ℚ) ≤ 1 / 2 := by linarith
    have hmin : spec.minExponent ≤ lastExponentIn spec m e := minExponent_le_lastExponentIn
    refine iff_of_false hnot fun hle => hnot (hscaled.mpr (hle.trans ?_))
    exact zpow_le_zpow_right₀ one_le_two (by omega)

namespace CanonicalIn

/-- Rounding keeps all bits of a number that those of a larger canonical number can count. -/
lemma lastExponentIn_le (h : CanonicalIn spec k c) (hm : 0 < m)
    (hle : (m * 2 ^ e : ℚ) ≤ k * 2 ^ c) : lastExponentIn spec m e ≤ c := by
  have hlt : (2 : ℚ) ^ (m.log2 + e) < 2 ^ (spec.mantissaBitsWithoutImplicit + 1 + c) :=
    ((two_zpow_le hm).trans hle).trans_lt h.lt_zpow
  have hexponent := (zpow_lt_zpow_iff_right₀ one_lt_two).mp hlt
  have := h.le_exponent
  rw [Workforce.lastExponentIn_eq]
  omega

/-- Rounding does not pass a canonical number on the way up. -/
lemma extent_roundWithAccuracy_le (h : CanonicalIn spec k c) (s : Sign) (hm : 0 < m)
    (he : e ≤ lastExponentIn spec m e) (hle : (m * 2 ^ e : ℚ) ≤ k * 2 ^ c) :
    extent (roundWithAccuracy spec s m e .exact) ≤ (k * 2 ^ c : ℚ) := by
  obtain ⟨n, hn, hround⟩ := extent_roundWithAccuracy s hm he
  have hk := mul_two_pow_mul_zpow k (h.lastExponentIn_le hm hle)
  rw [← mul_zpow_sub_mul m e (lastExponentIn spec m e), ← hk] at hle
  rw [hround, ← hk, WithTop.coe_le_coe]
  gcongr
  exact hn.mono (isNearestEven_natCast _) (le_of_mul_zpow_le hle)

/-- Rounding does not pass a canonical number on the way down. -/
lemma le_extent_roundWithAccuracy (h : CanonicalIn spec k c) (s : Sign) (hm : 0 < m)
    (he : e ≤ lastExponentIn spec m e) (hle : (k * 2 ^ c : ℚ) ≤ m * 2 ^ e) :
    ((k * 2 ^ c : ℚ) : WithTop ℚ) ≤ extent (roundWithAccuracy spec s m e .exact) := by
  obtain ⟨n, hn, hround⟩ := extent_roundWithAccuracy s hm he
  rw [hround, WithTop.coe_le_coe]
  rcases le_or_gt (lastExponentIn spec m e) c with hlast | hlast
  · have hk := mul_two_pow_mul_zpow k hlast
    rw [← mul_zpow_sub_mul m e (lastExponentIn spec m e), ← hk] at hle
    rw [← hk]
    gcongr
    exact (isNearestEven_natCast _).mono hn (le_of_mul_zpow_le hle)
  · -- the first of the bits that are kept is above the canonical number
    have hn' : 2 ^ spec.mantissaBitsWithoutImplicit ≤ n :=
      (isNearestEven_natCast _).mono hn
        (two_pow_le_mul_zpow hm (h.le_exponent.trans_lt hlast).ne')
    calc (k * 2 ^ c : ℚ) ≤ 2 ^ (spec.mantissaBitsWithoutImplicit + 1 + c) := h.lt_zpow.le
      _ ≤ 2 ^ (spec.mantissaBitsWithoutImplicit + lastExponentIn spec m e) :=
        zpow_le_zpow_right₀ one_le_two (by omega)
      _ = (2 ^ spec.mantissaBitsWithoutImplicit : ℕ) * 2 ^ lastExponentIn spec m e :=
        (natCast_two_pow_mul_zpow _ _).symm
      _ ≤ n * 2 ^ lastExponentIn spec m e := by gcongr

end CanonicalIn

/-- Rounding is monotone: where fewer bits are kept of the larger number, the first bit that is kept
separates the two. -/
lemma extent_roundWithAccuracy_mono (s s' : Sign) (hm : 0 < m) (he : e ≤ lastExponentIn spec m e)
    (hm' : 0 < m') (he' : e' ≤ lastExponentIn spec m' e')
    (hle : (m * 2 ^ e : ℚ) ≤ m' * 2 ^ e') :
    extent (roundWithAccuracy spec s m e .exact) ≤
      extent (roundWithAccuracy spec s' m' e' .exact) := by
  have hlast : lastExponentIn spec m e ≤ lastExponentIn spec m' e' := by
    have hlt : (2 : ℚ) ^ (m.log2 + e) < 2 ^ (m'.log2 + 1 + e') :=
      ((two_zpow_le hm).trans hle).trans_lt lt_two_zpow
    have hexponent := (zpow_lt_zpow_iff_right₀ one_lt_two).mp hlt
    rw [lastExponentIn_eq, lastExponentIn_eq]
    omega
  -- kept to the same bit, both are rounded to integers; otherwise a power of two lies between
  rcases hlast.eq_or_lt with heq | hlt
  · obtain ⟨n, hn, hround⟩ := extent_roundWithAccuracy s hm he
    obtain ⟨n', hn', hround'⟩ := extent_roundWithAccuracy s' hm' he'
    rw [← mul_zpow_sub_mul m e (lastExponentIn spec m e),
      ← mul_zpow_sub_mul m' e' (lastExponentIn spec m' e'), heq] at hle
    rw [hround, hround', WithTop.coe_le_coe, heq]
    gcongr
    rw [heq] at hn
    exact hn.mono hn' (le_of_mul_zpow_le hle)
  · have hbelow : spec.minExponent ≤ lastExponentIn spec m e := minExponent_le_lastExponentIn
    have hcanonical := canonicalIn_two_pow (hbelow.trans hlt.le)
    calc extent (roundWithAccuracy spec s m e .exact)
        ≤ (((2 ^ spec.mantissaBitsWithoutImplicit : ℕ) * 2 ^ lastExponentIn spec m' e' : ℚ) :
            WithTop ℚ) := by
          refine hcanonical.extent_roundWithAccuracy_le s hm he (lt_two_zpow.le.trans ?_)
          rw [natCast_two_pow_mul_zpow]
          refine zpow_le_zpow_right₀ one_le_two ?_
          rw [lastExponentIn_eq] at hlt
          omega
      _ ≤ extent (roundWithAccuracy spec s' m' e' .exact) := by
          refine hcanonical.le_extent_roundWithAccuracy s' hm' he' ?_
          rw [← mul_zpow_sub_mul m' e' (lastExponentIn spec m' e')]
          gcongr
          exact two_pow_le_mul_zpow hm' (hbelow.trans_lt hlt).ne'

/-! ### Stored numbers that are not negative -/

/-- A number that is not negative, in the form in which it is stored. -/
inductive Unsigned : UnpackedFloat → Prop
  | zero : Unsigned (.zero .positive)
  | finite {m : ℕ} {e : ℤ} (h : Canonical m e) : Unsigned (.finite .positive m e h.pos)
  | infinity : Unsigned (.infinity .positive)

namespace Unsigned

lemma magnitudeIn (ha : Unsigned a) : MagnitudeIn .binary64 a := by
  cases ha with
  | zero => exact .zero .positive
  | finite h => exact .finite h.canonicalIn
  | infinity => exact .infinity

lemma lt_iff (ha : Unsigned a) (hb : Unsigned b) : a.lt b = true ↔ extent a < extent b :=
  ha.magnitudeIn.lt_iff hb.magnitudeIn

lemma le_iff (ha : Unsigned a) (hb : Unsigned b) : a.le b = true ↔ extent a ≤ extent b :=
  ha.magnitudeIn.le_iff hb.magnitudeIn

lemma eq_of_extent_eq (ha : Unsigned a) (hb : Unsigned b)
    (heq : extent a = extent b) : a = b := by
  cases ha with
  | zero =>
    cases hb with
    | zero => rfl
    | finite h' => exact absurd heq (extent_finite_pos _ _).ne
    | infinity => exact absurd heq (WithTop.coe_lt_top 0).ne
  | finite h =>
    cases hb with
    | zero => exact absurd heq (extent_finite_pos _ _).ne'
    | finite h' =>
      obtain ⟨rfl, rfl⟩ := h.eq_of_mul_eq h' (WithTop.coe_injective heq)
      rfl
    | infinity => exact absurd heq (WithTop.coe_lt_top _).ne
  | infinity =>
    cases hb with
    | zero => exact absurd heq (WithTop.coe_lt_top 0).ne'
    | finite h' => exact absurd heq (WithTop.coe_lt_top _).ne'
    | infinity => rfl

end Unsigned

/-! ### Rounding to binary64 -/

/-- Round a number that is not negative. -/
def roundUnsigned (m : ℕ) (e : ℤ) : UnpackedFloat :=
  roundWithAccuracy Format.binary64 .positive m e .exact

lemma roundUnsigned_spec (hm : 0 < m) (he : e ≤ lastExponent m e) :
    Unsigned (roundUnsigned m e) ∧ ∃ n, IsNearestEven (m * 2 ^ (e - lastExponent m e)) n ∧
      extent (roundUnsigned m e) = (n * 2 ^ lastExponent m e : ℚ) := by
  rw [← lastExponentIn_binary64] at he ⊢
  refine ⟨?_, extent_roundWithAccuracy .positive hm he⟩
  rw [roundUnsigned]
  obtain ⟨n, -, ⟨-, hround⟩ | ⟨m', e', h, hround, hcanonical, -⟩⟩ :=
    roundWithAccuracy_eq .positive hm he
  · rw [hround]
    exact .zero
  · rw [hround]
    exact .finite (canonicalIn_binary64_iff.mp hcanonical)

namespace Canonical

lemma lastExponent_le (h : Canonical k c) (hm : 0 < m) (hle : (m * 2 ^ e : ℚ) ≤ k * 2 ^ c) :
    lastExponent m e ≤ c :=
  h.canonicalIn.lastExponentIn_le hm hle

lemma extent_roundUnsigned_le (h : Canonical k c) (hm : 0 < m) (he : e ≤ lastExponent m e)
    (hle : (m * 2 ^ e : ℚ) ≤ k * 2 ^ c) :
    extent (roundUnsigned m e) ≤ (k * 2 ^ c : ℚ) :=
  h.canonicalIn.extent_roundWithAccuracy_le .positive hm he hle

/-- A canonical number in units of the last bit that rounding keeps of a smaller one. -/
def inUnits (k : ℕ) (c : ℤ) (m : ℕ) (e : ℤ) : ℕ := k * 2 ^ (c - lastExponent m e).toNat

lemma inUnits_pos (h : Canonical k c) : 0 < inUnits k c m e :=
  Nat.mul_pos h.pos (Nat.two_pow_pos _)

/-- Rounding stays below a canonical number where it is not nearer to that than to the number
before it. -/
lemma extent_roundUnsigned_lt_iff (h : Canonical k c) (hm : 0 < m) (he : e ≤ lastExponent m e)
    (hle : (m * 2 ^ e : ℚ) ≤ k * 2 ^ c) :
    extent (roundUnsigned m e) < (k * 2 ^ c : ℚ) ↔
      (m * 2 ^ (e - lastExponent m e) : ℚ) < inUnits k c m e - 1 / 2 ∨
        (m * 2 ^ (e - lastExponent m e) : ℚ) = inUnits k c m e - 1 / 2 ∧ Odd (inUnits k c m e) := by
  obtain ⟨-, n, hn, hround⟩ := roundUnsigned_spec hm he
  rw [hround, ← mul_two_pow_mul_zpow k (h.lastExponent_le hm hle), WithTop.coe_lt_coe,
    mul_lt_mul_iff_left₀ (zpow_pos two_pos _), Nat.cast_lt]
  exact hn.lt_iff h.inUnits_pos

lemma mul_zpow_le_inUnits_mul (h : Canonical k c) (hm : 0 < m) {factor : ℚ} (hone : factor ≤ 1)
    (hle : (m * 2 ^ e : ℚ) ≤ k * 2 ^ c * factor) :
    (m * 2 ^ e : ℚ) ≤ k * 2 ^ c ∧
      (m * 2 ^ (e - lastExponent m e) : ℚ) ≤ inUnits k c m e * factor := by
  have hle' : (m * 2 ^ e : ℚ) ≤ k * 2 ^ c :=
    hle.trans (mul_le_of_le_one_right (by positivity) hone)
  refine ⟨hle', ?_⟩
  rw [← mul_zpow_sub_mul m e (lastExponent m e),
    ← mul_two_pow_mul_zpow k (h.lastExponent_le hm hle'), mul_right_comm _ _ factor] at hle
  exact le_of_mul_zpow_le hle

/-- A number that is at most half of a canonical one rounds to one below it. -/
lemma extent_roundUnsigned_lt_of_half (h : Canonical k c) (hm : 0 < m)
    (he : e ≤ lastExponent m e) (hle : (m * 2 ^ e : ℚ) ≤ k * 2 ^ c * (1 / 2)) :
    extent (roundUnsigned m e) < (k * 2 ^ c : ℚ) := by
  obtain ⟨hle', hq⟩ := h.mul_zpow_le_inUnits_mul hm (by norm_num) hle
  rw [h.extent_roundUnsigned_lt_iff hm he hle']
  rcases (Nat.succ_le_of_lt h.inUnits_pos).eq_or_lt with hone | htwo
  · -- half of one is as near to zero as to one, and zero is even
    rw [← hone] at hq ⊢
    norm_num at hq ⊢
    exact hq.lt_or_eq
  · have htwo' : (2 : ℚ) ≤ inUnits k c m e := by exact_mod_cast htwo
    exact .inl (by linarith)

/-- Above the least normal number, a factor that is as near to one as possible takes more than half
of the last bit. -/
lemma extent_roundUnsigned_lt (h : Canonical k c) (hm : 0 < m) (he : e ≤ lastExponent m e)
    (hle : (m * 2 ^ e : ℚ) ≤ k * 2 ^ c * (1 - 2 ^ (-53 : ℤ)))
    (hk : (2 : ℚ) ^ (-1022 : ℤ) < k * 2 ^ c) :
    extent (roundUnsigned m e) < (k * 2 ^ c : ℚ) := by
  obtain ⟨hle', hq⟩ := h.mul_zpow_le_inUnits_mul hm (by norm_num) hle
  rw [h.extent_roundUnsigned_lt_iff hm he hle']
  left
  norm_num at hq
  rcases (h.lastExponent_le hm hle').eq_or_lt with hlast | hlast
  · have hunits : inUnits k c m e = k := by simp [inUnits, hlast]
    rw [hunits] at hq ⊢
    -- a power of two has smaller bits below it, so the number is above one
    have hpower : 2 ^ 52 < k := by
      by_contra! hle
      have hle' : (k : ℚ) ≤ (2 ^ 52 : ℕ) := by exact_mod_cast hle
      have hpos : (0 : ℚ) < k := by exact_mod_cast h.pos
      by_cases hc : c = -1074
      · refine hk.not_ge ?_
        calc (k * 2 ^ c : ℚ) ≤ (2 ^ 52 : ℕ) * 2 ^ (-1074 : ℤ) := by rw [hc]; gcongr
          _ = 2 ^ (-1022 : ℤ) := two_pow_mul_zpow _
      · have := le_mul_zpow hm (hlast ▸ hc)
        linarith
    have hpower' : (2 ^ 52 : ℚ) < k := by exact_mod_cast hpower
    linarith
  · -- the bits that are kept are smaller than the last bit of the canonical number
    have hfull : 2 ^ 52 ≤ k := h.full.resolve_right (by rw [lastExponent] at hlast; omega)
    have hunits : 2 ^ 53 ≤ inUnits k c m e :=
      calc 2 ^ 53 = 2 ^ 52 * 2 ^ 1 := by norm_num
        _ ≤ k * 2 ^ (c - lastExponent m e).toNat :=
          Nat.mul_le_mul hfull (Nat.pow_le_pow_right two_pos (by omega))
    have hunits' : (2 ^ 53 : ℚ) ≤ inUnits k c m e := by exact_mod_cast hunits
    linarith

end Canonical

lemma extent_roundUnsigned_mono (hm : 0 < m) (he : e ≤ lastExponent m e) (hm' : 0 < m')
    (he' : e' ≤ lastExponent m' e') (hle : (m * 2 ^ e : ℚ) ≤ m' * 2 ^ e') :
    extent (roundUnsigned m e) ≤ extent (roundUnsigned m' e') :=
  extent_roundWithAccuracy_mono .positive .positive hm he hm' he' hle

end Workforce
