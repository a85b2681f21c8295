import Workforce.Proofs.Number.Rounding

/-!
# Canonical numbers of a format

Finite numbers of a floating point format have a mantissa with as many bits as the format has, or
a shorter one at the least exponent. In this form they are ordered by exponent and mantissa, and
rounding a positive number gives the nearest number of this form, or zero (`roundWithAccuracy_eq`).
-/

namespace Workforce

open Float.Model Float.Model.UnpackedFloat

/-- A mantissa and an exponent as a format has them: the mantissa has all its bits, or fewer at the
least exponent. -/
structure CanonicalIn (spec : Format) (m : ℕ) (e : ℤ) : Prop where
  pos : 0 < m
  lt : m < 2 ^ (spec.mantissaBitsWithoutImplicit + 1)
  le_exponent : spec.minExponent ≤ e
  full : 2 ^ spec.mantissaBitsWithoutImplicit ≤ m ∨ e = spec.minExponent

/-- The exponent of the last bit that a format keeps of a number. -/
def lastExponentIn (spec : Format) (m : ℕ) (e : ℤ) : ℤ := spec.targetExponent (totalExponent m e)

variable {spec : Format} {m m' k : ℕ} {e e' c : ℤ}

lemma mantissaBits_eq : spec.mantissaBits = spec.mantissaBitsWithoutImplicit + 1 :=
  Nat.add_comm ..

lemma lastExponentIn_eq : lastExponentIn spec m e =
    max (m.log2 + e - spec.mantissaBitsWithoutImplicit) spec.minExponent := by
  rw [lastExponentIn, Format.targetExponent, totalExponent, mantissaBits_eq]
  congr 1
  push_cast
  ring

lemma minExponent_le_lastExponentIn : spec.minExponent ≤ lastExponentIn spec m e :=
  le_max_right _ _

/-- The least exponent leaves room for numbers below one. -/
lemma minExponent_nonpos : spec.minExponent ≤ 0 := by
  have hbits := spec.hm
  have hpow : (1 : ℤ) ≤ 2 ^ (spec.exponentBits - 1) := one_le_pow₀ one_le_two
  rw [Format.minExponent, mantissaBits_eq]
  omega

/-! ### Powers of two -/

lemma two_zpow_le (hm : 0 < m) : (2 : ℚ) ^ (m.log2 + e) ≤ m * 2 ^ e := by
  rw [zpow_add₀ two_ne_zero, zpow_natCast]
  gcongr
  exact_mod_cast Nat.log2_self_le hm.ne'

lemma lt_two_zpow : m * 2 ^ e < (2 : ℚ) ^ (m.log2 + 1 + e) := by
  rw [zpow_add₀ two_ne_zero, ← Nat.cast_succ, zpow_natCast]
  gcongr
  exact_mod_cast Nat.lt_log2_self

lemma mul_zpow_sub_mul (m : ℕ) (e c : ℤ) : (m * 2 ^ (e - c) : ℚ) * 2 ^ c = m * 2 ^ e := by
  rw [mul_assoc, ← zpow_add₀ two_ne_zero, sub_add_cancel]

/-- A number with a larger exponent is a multiple of a smaller power of two. -/
lemma mul_two_pow_mul_zpow (k : ℕ) (h : e ≤ c) :
    ((k * 2 ^ (c - e).toNat : ℕ) * 2 ^ e : ℚ) = k * 2 ^ c := by
  have hshift : ((c - e).toNat : ℤ) = c - e := Int.toNat_of_nonneg (by omega)
  push_cast
  rw [← zpow_natCast, hshift, mul_zpow_sub_mul]

lemma mul_zpow_add (k m : ℕ) (c e : ℤ) :
    ((k * m : ℕ) * 2 ^ (c + e) : ℚ) = k * 2 ^ c * (m * 2 ^ e) := by
  rw [zpow_add₀ two_ne_zero]
  push_cast
  ring

lemma natCast_two_pow_mul_zpow (n : ℕ) (e : ℤ) : ((2 ^ n : ℕ) * 2 ^ e : ℚ) = 2 ^ (n + e) := by
  rw [Nat.cast_pow, Nat.cast_two, ← zpow_natCast, ← zpow_add₀ two_ne_zero]

/-! ### Order -/

lemma canonicalIn_two_pow (he : spec.minExponent ≤ e) :
    CanonicalIn spec (2 ^ spec.mantissaBitsWithoutImplicit) e :=
  ⟨Nat.two_pow_pos _, Nat.pow_lt_pow_right one_lt_two (Nat.lt_succ_self _), he, .inl le_rfl⟩

namespace CanonicalIn

lemma log2_le (h : CanonicalIn spec m e) : m.log2 ≤ spec.mantissaBitsWithoutImplicit :=
  Nat.lt_succ_iff.mp ((Nat.log2_lt h.pos.ne').mpr h.lt)

lemma lastExponentIn_eq (h : CanonicalIn spec m e) : lastExponentIn spec m e = e := by
  have hlog := h.log2_le
  have hle := h.le_exponent
  rw [Workforce.lastExponentIn_eq]
  rcases h.full with hm | he
  · have hlog' := (Nat.le_log2 h.pos.ne').mpr hm
    omega
  · omega

lemma pos_mul (h : CanonicalIn spec m e) : (0 : ℚ) < m * 2 ^ e :=
  mul_pos (by exact_mod_cast h.pos) (zpow_pos two_pos e)

lemma lt_zpow (h : CanonicalIn spec m e) :
    m * 2 ^ e < (2 : ℚ) ^ (spec.mantissaBitsWithoutImplicit + 1 + e) := by
  rw [zpow_add₀ two_ne_zero]
  gcongr
  exact_mod_cast h.lt

/-- Above the least exponent the first bit of the mantissa is set. -/
lemma zpow_le (h : CanonicalIn spec m e) (he : spec.minExponent < e) :
    (2 : ℚ) ^ (spec.mantissaBitsWithoutImplicit + e) ≤ m * 2 ^ e := by
  rw [zpow_add₀ two_ne_zero]
  gcongr
  exact_mod_cast h.full.resolve_right he.ne'

lemma lt_of_exponent_lt (h : CanonicalIn spec m e) (h' : CanonicalIn spec m' e') (he : e < e') :
    (m * 2 ^ e : ℚ) < m' * 2 ^ e' :=
  calc (m * 2 ^ e : ℚ) < 2 ^ (spec.mantissaBitsWithoutImplicit + 1 + e) := h.lt_zpow
    _ ≤ 2 ^ (spec.mantissaBitsWithoutImplicit + e') := zpow_le_zpow_right₀ one_le_two (by omega)
    _ ≤ m' * 2 ^ e' := h'.zpow_le (h.le_exponent.trans_lt he)

/-- Canonical numbers are ordered by their exponents, then by their mantissas. -/
lemma lt_iff (h : CanonicalIn spec m e) (h' : CanonicalIn spec m' e') :
    (m * 2 ^ e : ℚ) < m' * 2 ^ e' ↔ e < e' ∨ e = e' ∧ m < m' := by
  rcases lt_trichotomy e e' with he | rfl | he
  · exact iff_of_true (h.lt_of_exponent_lt h' he) (.inl he)
  · rw [mul_lt_mul_iff_left₀ (zpow_pos two_pos e), Nat.cast_lt]
    simp
  · refine iff_of_false (h'.lt_of_exponent_lt h he).not_gt ?_
    omega

lemma eq_of_mul_eq (h : CanonicalIn spec m e) (h' : CanonicalIn spec m' e')
    (heq : (m * 2 ^ e : ℚ) = m' * 2 ^ e') : m = m' ∧ e = e' := by
  have hlt := mt (h.lt_iff h').mpr heq.not_lt
  have hgt := mt (h'.lt_iff h).mpr heq.not_gt
  omega

/-- The product of two canonical numbers has enough bits to be rounded. -/
lemma le_lastExponentIn_mul (h : CanonicalIn spec m e) (h' : CanonicalIn spec m' e') :
    e + e' ≤ lastExponentIn spec (m * m') (e + e') := by
  have hpos := Nat.mul_pos h.pos h'.pos
  have hlog : ∀ {n : ℕ}, 2 ^ spec.mantissaBitsWithoutImplicit ≤ n → n ≤ m * m' →
      spec.mantissaBitsWithoutImplicit ≤ (m * m').log2 := fun hn hle =>
    (Nat.le_log2 hpos.ne').mpr (hn.trans hle)
  have hmin : spec.minExponent ≤ 0 := minExponent_nonpos
  rw [Workforce.lastExponentIn_eq]
  rcases h.full with hm | he
  · have := hlog hm (Nat.le_mul_of_pos_right m h'.pos)
    omega
  · rcases h'.full with hm' | he'
    · have := hlog hm' (Nat.le_mul_of_pos_left m' h.pos)
      omega
    · omega

end CanonicalIn

/-! ### Rounding -/

/-- Dropping bits leaves what they were in the residual bits. -/
lemma shiftToTargetExponent_eq (he : e ≤ lastExponentIn spec m e) :
    ∃ em, shiftToTargetExponent spec m e .exact = (em, lastExponentIn spec m e) ∧
      Approximates em (m * 2 ^ (e - lastExponentIn spec m e)) := by
  have hshift : ((lastExponentIn spec m e - e).toNat : ℤ) = lastExponentIn spec m e - e :=
    Int.toNat_of_nonneg (by omega)
  refine ⟨ExtendedMantissa.ofMantissaAndAccuracy m .exact >>>
    (lastExponentIn spec m e - e).toNat, ?_, ?_⟩
  · rw [shiftToTargetExponent, ← lastExponentIn, shiftToExponent, hshift]
    simp
  · have h := (approximates_exact m).shiftRight (lastExponentIn spec m e - e).toNat
    rwa [← zpow_natCast, hshift, div_eq_mul_inv, ← zpow_neg, neg_sub] at h

/-- Nothing has to be dropped from a canonical number. -/
lemma CanonicalIn.shiftToTargetExponent_eq (h : CanonicalIn spec m e) :
    shiftToTargetExponent spec m e .exact = (⟨m, false, false⟩, e) := by
  rw [shiftToTargetExponent, ← lastExponentIn, h.lastExponentIn_eq, shiftToExponent]
  simp [ExtendedMantissa.ofMantissaAndAccuracy, HShiftRight.hShiftRight, Nat.repeat]

/-- A mantissa that rounding has brought to one bit more loses a zero. -/
lemma shiftToTargetExponent_two_pow (he : spec.minExponent ≤ e) :
    shiftToTargetExponent spec (2 ^ (spec.mantissaBitsWithoutImplicit + 1)) e .exact =
      (⟨2 ^ spec.mantissaBitsWithoutImplicit, false, false⟩, e + 1) := by
  have hlast :
      lastExponentIn spec (2 ^ (spec.mantissaBitsWithoutImplicit + 1)) e = e + 1 := by
    rw [lastExponentIn_eq, Nat.log2_two_pow]
    omega
  rw [shiftToTargetExponent, ← lastExponentIn, hlast, shiftToExponent]
  simp [ExtendedMantissa.ofMantissaAndAccuracy, HShiftRight.hShiftRight, Nat.repeat,
    ExtendedMantissa.shiftRightOne, pow_succ]

lemma shiftToTargetExponent_zero (he : spec.minExponent ≤ e) :
    (shiftToTargetExponent spec 0 e .exact).1.mantissa = 0 := by
  have hshift : (lastExponentIn spec 0 e - e).toNat = 0 := by
    rw [lastExponentIn_eq, Nat.log2_zero]
    omega
  rw [shiftToTargetExponent, ← lastExponentIn, shiftToExponent, hshift]
  rfl

/-- What remains of a number has no more bits before the rest than the format has. -/
lemma mul_zpow_lt_two_pow : (m * 2 ^ (e - lastExponentIn spec m e) : ℚ) <
    (2 ^ (spec.mantissaBitsWithoutImplicit + 1) : ℕ) :=
  calc (m * 2 ^ (e - lastExponentIn spec m e) : ℚ)
      < 2 ^ (m.log2 + 1 + (e - lastExponentIn spec m e)) := lt_two_zpow
    _ ≤ 2 ^ (spec.mantissaBitsWithoutImplicit + 1 : ℤ) :=
      zpow_le_zpow_right₀ one_le_two (by rw [lastExponentIn_eq]; omega)
    _ = (2 ^ (spec.mantissaBitsWithoutImplicit + 1) : ℕ) := by norm_cast

/-- Above the least exponent all bits of the format remain. -/
lemma two_pow_le_mul_zpow (hm : 0 < m) (hlast : lastExponentIn spec m e ≠ spec.minExponent) :
    ((2 ^ spec.mantissaBitsWithoutImplicit : ℕ) : ℚ) ≤ m * 2 ^ (e - lastExponentIn spec m e) :=
  calc ((2 ^ spec.mantissaBitsWithoutImplicit : ℕ) : ℚ)
      = 2 ^ (spec.mantissaBitsWithoutImplicit : ℤ) := by norm_cast
    _ ≤ 2 ^ (m.log2 + (e - lastExponentIn spec m e)) :=
      zpow_le_zpow_right₀ one_le_two (by rw [lastExponentIn_eq] at hlast ⊢; omega)
    _ ≤ m * 2 ^ (e - lastExponentIn spec m e) := two_zpow_le hm

/-- Rounding a positive number gives a canonical one or zero: a multiple of a power of two that is
as near as possible. -/
lemma roundWithAccuracy_eq (s : Sign) (hm : 0 < m) (he : e ≤ lastExponentIn spec m e) :
    ∃ n, IsNearestEven (m * 2 ^ (e - lastExponentIn spec m e)) n ∧
      (n = 0 ∧ roundWithAccuracy spec s m e .exact = .zero s ∨
        ∃ m' e' h, roundWithAccuracy spec s m e .exact = .finite s m' e' h ∧
          CanonicalIn spec m' e' ∧ (m' * 2 ^ e' : ℚ) = n * 2 ^ lastExponentIn spec m e) := by
  obtain ⟨em, hem, happrox⟩ := shiftToTargetExponent_eq he
  have hlast : spec.minExponent ≤ lastExponentIn spec m e := minExponent_le_lastExponentIn
  have hle : em.roundedMantissa ≤ 2 ^ (spec.mantissaBitsWithoutImplicit + 1) :=
    happrox.isNearestEven.mono (isNearestEven_natCast _) mul_zpow_lt_two_pow.le
  have hfull : 2 ^ spec.mantissaBitsWithoutImplicit ≤ em.roundedMantissa ∨
      lastExponentIn spec m e = spec.minExponent := by
    by_contra! hnot
    exact hnot.1.not_ge
      ((isNearestEven_natCast _).mono happrox.isNearestEven (two_pow_le_mul_zpow hm hnot.2))
  refine ⟨em.roundedMantissa, happrox.isNearestEven, ?_⟩
  rw [roundWithAccuracy, hem]
  dsimp only
  rcases Nat.eq_zero_or_pos em.roundedMantissa with hzero | hpos
  · refine .inl ⟨hzero, ?_⟩
    rw [hzero, dif_pos (shiftToTargetExponent_zero hlast)]
  · right
    -- rounding up may carry into one bit more, which is shifted out again as it is zero
    rcases hle.lt_or_eq with hlt | htop
    · have hcanonical : CanonicalIn spec em.roundedMantissa (lastExponentIn spec m e) :=
        ⟨hpos, hlt, hlast, hfull⟩
      rw [hcanonical.shiftToTargetExponent_eq, dif_neg hpos.ne']
      exact ⟨_, _, _, rfl, hcanonical, rfl⟩
    · rw [htop, shiftToTargetExponent_two_pow hlast, dif_neg (by simp)]
      refine ⟨_, _, _, rfl, canonicalIn_two_pow (by omega), ?_⟩
      rw [zpow_add_one₀ two_ne_zero, pow_succ]
      push_cast
      ring

/-- Rounding leaves canonical numbers as they are. -/
lemma CanonicalIn.roundWithAccuracy_eq (h : CanonicalIn spec m e) (s : Sign) :
    roundWithAccuracy spec s m e .exact = .finite s m e h.pos := by
  rw [roundWithAccuracy, h.shiftToTargetExponent_eq]
  dsimp only [ExtendedMantissa.roundedMantissa, ExtendedMantissa.accuracy,
    Accuracy.roundToNearestEven]
  rw [h.shiftToTargetExponent_eq, dif_neg h.pos.ne']

/-! ### Rounding powers of two -/

/-- The mantissa of a power of two. -/
def powerMantissa (spec : Format) (c : ℤ) : ℕ := 2 ^ (c - lastExponentIn spec 1 c).toNat

lemma lastExponentIn_one :
    lastExponentIn spec 1 c = max (c - spec.mantissaBitsWithoutImplicit) spec.minExponent := by
  rw [lastExponentIn_eq, show Nat.log2 1 = 0 from rfl, Nat.cast_zero, zero_add]

lemma lastExponentIn_one_le (hc : spec.minExponent ≤ c) : lastExponentIn spec 1 c ≤ c := by
  rw [lastExponentIn_one]
  omega

lemma canonicalIn_power (spec : Format) (c : ℤ) :
    CanonicalIn spec (powerMantissa spec c) (lastExponentIn spec 1 c) := by
  have hlast := @lastExponentIn_one spec c
  refine ⟨Nat.two_pow_pos _, Nat.pow_lt_pow_right one_lt_two (by omega), by omega, ?_⟩
  rcases max_choice (c - spec.mantissaBitsWithoutImplicit) spec.minExponent with h | h
  · exact .inl (Nat.pow_le_pow_right two_pos (by omega))
  · exact .inr (hlast.trans h)

/-- A power of two is rounded to itself unless it is below all positive numbers. -/
lemma round_power (s : Sign) (hc : spec.minExponent ≤ c) :
    UnpackedFloat.round spec s 1 c =
      .finite s (powerMantissa spec c) (lastExponentIn spec 1 c)
        (canonicalIn_power spec c).pos := by
  have hle := lastExponentIn_one_le hc
  have hshift : c - (c - lastExponentIn spec 1 c).toNat = lastExponentIn spec 1 c := by omega
  rw [UnpackedFloat.round, ← lastExponentIn, decreaseExponent]
  dsimp only
  rw [hshift, Nat.shiftLeft_eq, one_mul]
  exact (canonicalIn_power spec c).roundWithAccuracy_eq s

lemma powerMantissa_mul (hc : spec.minExponent ≤ c) :
    (powerMantissa spec c * 2 ^ lastExponentIn spec 1 c : ℚ) = 2 ^ c := by
  have hpower := mul_two_pow_mul_zpow 1 (lastExponentIn_one_le hc)
  rw [one_mul, Nat.cast_one, one_mul] at hpower
  exact hpower

end Workforce
