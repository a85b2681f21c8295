import Workforce.Proofs.Number.Format

/-!
# Canonical binary64 numbers

Finite binary64 numbers have a mantissa of 53 bits, or a shorter one at the least exponent, which is
`-1074`. What holds of canonical numbers of any format is stated here for these.
-/

namespace Workforce

open Float.Model Float.Model.UnpackedFloat

/-- A mantissa and an exponent as they are stored: the mantissa has 53 bits, or fewer at the least
exponent. -/
structure Canonical (m : ℕ) (e : ℤ) : Prop where
  pos : 0 < m
  lt : m < 2 ^ 53
  le_exponent : -1074 ≤ e
  full : 2 ^ 52 ≤ m ∨ e = -1074

/-- The exponent of the last bit that is kept of a number. -/
def lastExponent (m : ℕ) (e : ℤ) : ℤ := max (m.log2 + 1 + e - 53) (-1074)

variable {m m' : ℕ} {e e' : ℤ}

lemma canonicalIn_binary64_iff : CanonicalIn .binary64 m e ↔ Canonical m e :=
  ⟨fun ⟨hpos, hlt, hle, hfull⟩ => ⟨hpos, hlt, hle, hfull⟩,
    fun ⟨hpos, hlt, hle, hfull⟩ => ⟨hpos, hlt, hle, hfull⟩⟩

lemma lastExponentIn_binary64 : lastExponentIn .binary64 m e = lastExponent m e := rfl

lemma canonical_two_pow (he : -1074 ≤ e) : Canonical (2 ^ 52) e :=
  canonicalIn_binary64_iff.mp (canonicalIn_two_pow he)

lemma two_pow_mul_zpow (e : ℤ) : ((2 ^ 52 : ℕ) * 2 ^ e : ℚ) = 2 ^ (52 + e) :=
  natCast_two_pow_mul_zpow 52 e

namespace Canonical

lemma canonicalIn (h : Canonical m e) : CanonicalIn .binary64 m e := canonicalIn_binary64_iff.mpr h

/-- Above the least exponent the first of the 53 bits is set. -/
lemma zpow_le (h : Canonical m e) (he : -1074 < e) : (2 : ℚ) ^ (52 + e) ≤ m * 2 ^ e :=
  h.canonicalIn.zpow_le he

lemma lt_of_exponent_lt (h : Canonical m e) (h' : Canonical m' e') (he : e < e') :
    (m * 2 ^ e : ℚ) < m' * 2 ^ e' :=
  h.canonicalIn.lt_of_exponent_lt h'.canonicalIn he

lemma eq_of_mul_eq (h : Canonical m e) (h' : Canonical m' e')
    (heq : (m * 2 ^ e : ℚ) = m' * 2 ^ e') : m = m' ∧ e = e' :=
  h.canonicalIn.eq_of_mul_eq h'.canonicalIn heq

end Canonical

/-- Above the least exponent exactly 53 bits remain. -/
lemma le_mul_zpow (hm : 0 < m) (hlast : lastExponent m e ≠ -1074) :
    ((2 ^ 52 : ℕ) : ℚ) ≤ m * 2 ^ (e - lastExponent m e) := by
  rw [← lastExponentIn_binary64] at hlast ⊢
  exact two_pow_le_mul_zpow hm hlast

end Workforce
