import Workforce.Proofs.Number.Entry

/-!
# Normalizers of entries

The normalizer of an entry is a power of two that brings its value between one half and two; it is
below one only where the logarithm was rounded up. The normalizer is infinite where that power is
out of range, which it is for values below `leastScalable`.
-/

namespace Workforce

open Float.Model Float.Model.UnpackedFloat

/-! ### Powers of two -/

namespace Single

variable {k : ℤ}

lemma unpack_pow2 (k : ℤ) : (pow2 k).toModel.unpack =
    UnpackedFloat.unpack .binary32 (UnpackedFloat.pack .binary32
      (UnpackedFloat.unpack .binary32 (UnpackedFloat.pack .binary32
        (UnpackedFloat.round .binary32 .positive 1 k)))) := rfl

lemma unpack_pow2_of_le (hk : -149 ≤ k) (hk' : k ≤ 127) :
    ∃ m e h, (pow2 k).toModel.unpack = .finite .positive m e h ∧ (m * 2 ^ e : ℚ) = 2 ^ k := by
  have he : lastExponentIn .binary32 1 k ≤ greatestExponent .binary32 := by
    rw [lastExponentIn_one]
    change max (k - 23) (-149) ≤ 104
    omega
  have hcanonical := canonicalIn_power .binary32 k
  refine ⟨_, _, hcanonical.pos, ?_, powerMantissa_mul hk⟩
  rw [unpack_pow2, round_power .positive hk, unpack_packed_finite hcanonical he,
    unpack_packed_finite hcanonical he]

lemma unpack_pow2_of_lt (hk : 127 < k) : (pow2 k).toModel.unpack = .infinity .positive := by
  have he : greatestExponent .binary32 < lastExponentIn .binary32 1 k := by
    rw [lastExponentIn_one]
    change 104 < max (k - 23) (-149)
    omega
  have hmin : (Format.binary32).minExponent ≤ k := by
    change -149 ≤ k
    omega
  rw [unpack_pow2, round_power .positive hmin,
    packed_of_greatestExponent_lt (canonicalIn_power .binary32 k) he, unpack_packedInfinity]
  exact unpack_packedInfinity .positive

lemma value_pow2 (hk : -149 ≤ k) (hk' : k ≤ 127) : value (pow2 k) = 2 ^ k := by
  obtain ⟨m, e, h, hu, heq⟩ := unpack_pow2_of_le hk hk'
  rw [value_of_unpack_finite hu, heq]

lemma isFinite_pow2_iff (hk : -149 ≤ k) : (pow2 k).isFinite = true ↔ k ≤ 127 := by
  change (pow2 k).toModel.unpack.isFinite = true ↔ _
  rcases le_or_gt k 127 with hle | hgt
  · obtain ⟨m, e, h, hu, -⟩ := unpack_pow2_of_le hk hle
    exact iff_of_true (by rw [hu]; rfl) hle
  · rw [unpack_pow2_of_lt hgt]
    exact iff_of_false Bool.false_ne_true hgt.not_ge

/-! ### Rounded logarithms -/

lemma logarithmSlack_le (e : ℤ) : logarithmSlack e ≤ e.natAbs := by
  have hdiv : ∀ n, 177 * n / 256 ≤ n := fun n => by omega
  rw [logarithmSlack]
  split_ifs with hzero hone
  · exact Nat.zero_le _
  · exact Nat.zero_le _
  · have hpow : 2 ^ e.natAbs.log2 ≤ e.natAbs := Nat.log2_self_le (Int.natAbs_ne_zero.mpr hzero)
    dsimp only
    split_ifs
    · exact (hdiv _).trans ((Nat.pow_le_pow_right two_pos (Nat.sub_le _ 1)).trans hpow)
    · exact (hdiv _).trans hpow

section FloorLog2

variable {m : ℕ} {e : ℤ}

/-- The logarithm is rounded up to the next integer only from just below it. -/
lemma floorLog2_cases (m : ℕ) (e : ℤ) :
    floorLog2 m e = m.log2 + e ∨
      floorLog2 m e = m.log2 + 1 + e ∧ m.log2 < 24 ∧
        (2 ^ (m.log2 + 1) - m) * 2 ^ (23 - m.log2) ≤ logarithmSlack (m.log2 + 1 + e) := by
  have htop : e + ((m.log2 + 1 : ℕ) : ℤ) = m.log2 + 1 + e := by
    push_cast
    ring
  rw [floorLog2, htop]
  split_ifs with h
  · obtain ⟨hwidth, hgap⟩ := h
    have hbits : 24 - (m.log2 + 1) = 23 - m.log2 := by omega
    rw [hbits] at hgap
    exact .inr ⟨rfl, hwidth, hgap⟩
  · left
    ring

lemma lt_two_zpow_floorLog2 : (m * 2 ^ e : ℚ) < 2 ^ (floorLog2 m e + 1) := by
  refine lt_two_zpow.trans_le (zpow_le_zpow_right₀ one_le_two ?_)
  obtain h | ⟨h, -⟩ := floorLog2_cases m e <;> omega

/-- The value of an entry is more than half of the power of two that its logarithm gives. -/
lemma two_zpow_floorLog2_lt (h : CanonicalIn .binary32 m e) (he : e ≤ 104) :
    (2 : ℚ) ^ (floorLog2 m e - 1) < m * 2 ^ e := by
  have hle := h.le_exponent
  change -149 ≤ e at hle
  have hlog : m.log2 ≤ 23 := h.log2_le
  obtain hfloor | ⟨hfloor, -, hgap⟩ := floorLog2_cases m e
  · refine lt_of_lt_of_le ?_ (two_zpow_le h.pos)
    exact zpow_lt_zpow_right₀ one_lt_two (by omega)
  · -- from a power of two itself the next one is too far
    have hslack := hgap.trans (logarithmSlack_le _)
    have hne : 2 ^ m.log2 ≠ m := by
      intro heq
      have hhalf : 2 ^ (m.log2 + 1) - m = 2 ^ m.log2 := by
        rw [pow_succ]
        omega
      rw [hhalf, ← pow_add, Nat.add_sub_cancel' hlog] at hslack
      omega
    have hlt : 2 ^ m.log2 < m := lt_of_le_of_ne (Nat.log2_self_le h.pos.ne') hne
    rw [hfloor, show (m.log2 : ℤ) + 1 + e - 1 = m.log2 + e by ring, zpow_add₀ two_ne_zero,
      zpow_natCast]
    gcongr
    exact_mod_cast hlt

/-- The least value whose rounded logarithm is not below `-127`. Eleven units of the last bit below
`2 ^ (-127)` the logarithm is still rounded up. -/
def leastScalable : ℚ := (2 ^ 22 - 11 : ℕ) * 2 ^ (-149 : ℤ)

lemma floorLog2_least (hm : m.log2 = 21) :
    floorLog2 m (-149) = if 2 ^ 22 - 11 ≤ m then -127 else -128 := by
  have hgap : (Nat.pow 2 22 - m) * Nat.pow 2 2 ≤ 44 ↔ 2 ^ 22 - 11 ≤ m := by
    rw [show Nat.pow 2 22 = 4194304 from rfl, show Nat.pow 2 2 = 4 from rfl]
    omega
  have hslack : logarithmSlack (-127) = 44 := by decide
  rw [floorLog2, hm]
  norm_num [hslack, hgap]

lemma floorLog2_ge_iff (h : CanonicalIn .binary32 m e) :
    -127 ≤ floorLog2 m e ↔ leastScalable ≤ m * 2 ^ e := by
  have hfloor : m.log2 + e ≤ floorLog2 m e ∧ floorLog2 m e ≤ m.log2 + 1 + e := by
    obtain h | ⟨h, -⟩ := floorLog2_cases m e <;> omega
  have hle := h.le_exponent
  change -149 ≤ e at hle
  -- a full mantissa is far above the bound, so it is only subnormal numbers that it separates
  rcases h.full with hm | he
  · have hlog : 23 ≤ m.log2 := (Nat.le_log2 h.pos.ne').mpr hm
    refine iff_of_true (by omega) ?_
    rw [leastScalable]
    gcongr
    · exact (by norm_num : 2 ^ 22 - 11 ≤ 2 ^ 23).trans hm
    · exact one_le_two
  · obtain rfl : e = -149 := he
    rw [leastScalable, mul_le_mul_iff_left₀ (zpow_pos two_pos _), Nat.cast_le]
    rcases lt_trichotomy m.log2 21 with hlt | heq | hgt
    · have hm : m < 2 ^ 21 := (Nat.log2_lt h.pos.ne').mp hlt
      exact iff_of_false (by omega) (by omega)
    · rw [floorLog2_least heq]
      split_ifs with hm
      · exact iff_of_true le_rfl hm
      · exact iff_of_false (by decide) hm
    · have hm : 2 ^ 22 ≤ m := (Nat.le_log2 h.pos.ne').mp hgt
      exact iff_of_true (by omega) (by omega)

end FloorLog2

/-! ### Normalizers -/

variable {a : Float32}

/-- The normalizer of an entry is a power of two. -/
lemma exists_normalizer_eq (ha : a.isFinite = true) (hzero : (a == 0) = false) :
    ∃ f : ℤ, Precision.normalizer a = pow2 (-f) ∧ f ≤ 128 ∧ 2 ^ (f - 1) < value a ∧
      value a < 2 ^ (f + 1) ∧ (-127 ≤ f ↔ leastScalable ≤ value a) := by
  obtain ⟨s, hu⟩ | ⟨s, m, e, h, hu, hcanonical, he⟩ := isFinite_iff.mp ha
  · rw [beq_zero_iff.mpr ⟨s, hu⟩] at hzero
    cases hzero
  · have hnormalizer : Precision.normalizer a = pow2 (-floorLog2 m e) := by
      have hstored : UnpackedFloat.unpack .binary32 a.toBits.toBitVec = .finite s m e h := hu
      change normalizer a = _
      rw [normalizer, hstored]
    have hlower := two_zpow_floorLog2_lt hcanonical he
    have hlt : (2 : ℚ) ^ (floorLog2 m e - 1) < 2 ^ (23 + 1 + e) := hlower.trans hcanonical.lt_zpow
    have hexponent := (zpow_lt_zpow_iff_right₀ one_lt_two).mp hlt
    rw [value_of_unpack_finite hu]
    exact ⟨floorLog2 m e, hnormalizer, by omega, hlower, lt_two_zpow_floorLog2,
      floorLog2_ge_iff hcanonical⟩

/-- The normalizer is finite exactly if the entry is not too small. -/
lemma isFinite_normalizer_iff (ha : a.isFinite = true) (hzero : (a == 0) = false) :
    Float32.isFinite (Precision.normalizer a) = true ↔ leastScalable ≤ value a := by
  obtain ⟨f, hf, hle, -, -, hleast⟩ := exists_normalizer_eq ha hzero
  rw [hf, isFinite_pow2_iff (by omega), ← hleast]
  omega

/-- A finite normalizer brings an entry between one half and two. -/
lemma value_mul_normalizer (ha : a.isFinite = true) (hzero : (a == 0) = false)
    (hfinite : Float32.isFinite (Precision.normalizer a) = true) :
    1 / 2 < value a * value (Precision.normalizer a) ∧
      value a * value (Precision.normalizer a) < 2 := by
  obtain ⟨f, hf, hle, hlower, hupper, -⟩ := exists_normalizer_eq ha hzero
  rw [hf, isFinite_pow2_iff (by omega)] at hfinite
  rw [hf, value_pow2 (by omega) hfinite, zpow_neg, ← div_eq_mul_inv,
    lt_div_iff₀ (zpow_pos two_pos f), div_lt_iff₀ (zpow_pos two_pos f), ← zpow_one_add₀ two_ne_zero,
    add_comm 1 f]
  refine ⟨?_, hupper⟩
  rwa [zpow_sub_one₀ two_ne_zero, mul_comm, ← one_div] at hlower

end Single

end Workforce
