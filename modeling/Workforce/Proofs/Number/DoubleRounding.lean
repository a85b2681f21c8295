import Workforce.Proofs.Number.Conversion

/-!
# Rounding twice

Products and differences of entries may be rounded to binary64 before they are rounded to binary32.
Either binary64 has the exact number, so that the first rounding leaves it, or the operands are so
far apart that the number is very near to one of them: then it is rounded to that entry both ways.
-/

namespace Workforce

open Float.Model Float.Model.UnpackedFloat

variable {spec : Format} {s s' : Sign} {u u' v w w' : UnpackedFloat} {q x y : ℚ}
variable {m m' : ℕ} {e e' c : ℤ}

/-! ### Numbers near an entry -/

section Near

variable (h : CanonicalIn spec m e) (he : spec.minExponent < e)
  (hnear : |q - m * 2 ^ e| ≤ 2 ^ (e - 3))
include h he hnear

/-- Of a number near a canonical one, at most one bit more is kept: below a power of two, canonical
numbers are twice as close. -/
lemma lastExponentIn_of_near {M : ℕ} {E : ℤ} (hM : 0 < M) (hq : (M * 2 ^ E : ℚ) = q) :
    e - 1 ≤ lastExponentIn spec M E ∧ lastExponentIn spec M E ≤ e := by
  have hbits : (2 : ℚ) ≤ 2 ^ spec.mantissaBitsWithoutImplicit :=
    le_self_pow₀ one_le_two spec.hm.ne'
  have hpos : (0 : ℚ) < 2 ^ e := zpow_pos two_pos e
  have heighth : (2 : ℚ) ^ (e - 3) = 2 ^ e / 8 := by
    rw [zpow_sub₀ two_ne_zero]
    norm_num
  rw [heighth, abs_le] at hnear
  have hlt : (2 : ℚ) ^ (M.log2 + E) < 2 ^ (spec.mantissaBitsWithoutImplicit + 1 + e) :=
    calc (2 : ℚ) ^ (M.log2 + E) ≤ M * 2 ^ E := two_zpow_le hM
      _ < (m + 1 : ℕ) * 2 ^ e := by
        push_cast
        linarith
      _ ≤ (2 ^ (spec.mantissaBitsWithoutImplicit + 1) : ℕ) * 2 ^ e := by
        gcongr
        exact h.lt
      _ = 2 ^ (spec.mantissaBitsWithoutImplicit + 1 + e) := natCast_two_pow_mul_zpow _ _
  -- an eighth of a unit below a power of two there is one bit more, and no further one
  have hgt : (2 : ℚ) ^ (spec.mantissaBitsWithoutImplicit - 1 + e) < 2 ^ (M.log2 + 1 + E) :=
    calc (2 : ℚ) ^ (spec.mantissaBitsWithoutImplicit - 1 + e)
        = 2 ^ spec.mantissaBitsWithoutImplicit / 2 * 2 ^ e := by
          rw [zpow_add₀ two_ne_zero, zpow_sub_one₀ two_ne_zero, zpow_natCast, div_eq_mul_inv]
      _ ≤ 2 ^ spec.mantissaBitsWithoutImplicit * 2 ^ e - 2 ^ e / 8 := by nlinarith
      _ = 2 ^ (spec.mantissaBitsWithoutImplicit + e) - 2 ^ e / 8 := by
          rw [zpow_add₀ two_ne_zero, zpow_natCast]
      _ ≤ M * 2 ^ E := by
          have := h.zpow_le he
          linarith
      _ < 2 ^ (M.log2 + 1 + E) := lt_two_zpow
  have hexponent := (zpow_lt_zpow_iff_right₀ one_lt_two).mp hlt
  have hexponent' := (zpow_lt_zpow_iff_right₀ one_lt_two).mp hgt
  rw [lastExponentIn_eq]
  omega

/-- A number near a canonical one is rounded to it. -/
lemma IsRounded.eq_of_near (hw : IsRounded spec s q w) : w = .finite s m e h.pos := by
  obtain ⟨M, E, hM, hE, hq, rfl⟩ := hw
  obtain ⟨hlow, hhigh⟩ := lastExponentIn_of_near h he hnear hM hq
  obtain ⟨n, hn, hround⟩ := roundWithAccuracy_eq s hM hE
  have hscaled := mul_zpow_sub_mul M E (lastExponentIn spec M E)
  have hunits := mul_two_pow_mul_zpow m hhigh
  have hpos : (0 : ℚ) < 2 ^ lastExponentIn spec M E := zpow_pos two_pos _
  -- where one more bit is kept, an eighth of a unit is a quarter of the new one
  have hquarter : (2 : ℚ) ^ (e - 3) ≤ 2 ^ lastExponentIn spec M E / 4 :=
    calc (2 : ℚ) ^ (e - 3) ≤ 2 ^ (lastExponentIn spec M E - 2) :=
          zpow_le_zpow_right₀ one_le_two (by omega)
      _ = 2 ^ lastExponentIn spec M E / 4 := by
          rw [zpow_sub₀ two_ne_zero]
          norm_num
  rw [abs_le, ← hq, ← hscaled, ← hunits] at hnear
  have hnearest : IsNearestEven (M * 2 ^ (E - lastExponentIn spec M E))
      (m * 2 ^ (e - lastExponentIn spec M E).toNat) := by
    apply isNearestEven_of_lt
    · refine lt_of_mul_lt_mul_right ?_ hpos.le
      linarith
    · refine lt_of_mul_lt_mul_right ?_ hpos.le
      linarith
  obtain rfl := hn.unique hnearest
  rcases hround with ⟨hzero, -⟩ | ⟨m', e', h', hround, hcanonical, hvalue⟩
  · exact absurd hzero (Nat.mul_pos h.pos (Nat.two_pow_pos _)).ne'
  · obtain ⟨rfl, rfl⟩ := hcanonical.eq_of_mul_eq h (hvalue.trans hunits)
    exact hround

end Near

/-! ### Numbers that may be rounded twice -/

/-- A number that may be rounded to binary64 before it is rounded to binary32: binary64 has the
number, or it is near an entry. -/
inductive Rerounds (q : ℚ) : Prop
  | exact {m : ℕ} {e : ℤ} (h : CanonicalIn .binary64 m e) (value : (m * 2 ^ e : ℚ) = q)
    (lt : q < 2 ^ (1024 : ℤ))
  | near {m : ℕ} {e : ℤ} (h : CanonicalIn .binary32 m e) (lt : -149 < e) (le : e ≤ 104)
    (near : |q - m * 2 ^ e| ≤ 2 ^ (e - 3))

/-- Rounding to binary64 does not lead away from a number of fewer bits. -/
lemma IsRounded.near (hw : IsRounded .binary64 s q w) (h : CanonicalIn .binary32 m e)
    (hnear : |q - m * 2 ^ e| ≤ 2 ^ (e - 3)) :
    ∃ M E, ∃ H : CanonicalIn .binary64 M E, w = .finite s M E H.pos ∧
      |(M * 2 ^ E : ℚ) - m * 2 ^ e| ≤ 2 ^ (e - 3) := by
  obtain ⟨M, E, hM, hE, rfl, rfl⟩ := hw
  have hmin := h.le_exponent
  have hlt := h.lt
  have hpos := h.pos
  have hmin' : Format.binary64.minExponent ≤ e - 3 := by
    have : Format.binary32.minExponent = -149 := rfl
    have : Format.binary64.minExponent = -1074 := rfl
    omega
  have hexpand : (m * 2 ^ e : ℚ) = 8 * m * 2 ^ (e - 3) := by
    rw [zpow_sub₀ two_ne_zero]
    ring
  -- the ends of the interval are in binary64, so rounding does not pass them
  obtain ⟨k, a, hlow, hlow'⟩ := exists_canonicalIn .binary64 (m := 8 * m - 1) (by omega)
    (by dsimp only at hlt ⊢; omega) hmin'
  obtain ⟨l, b, hhigh, hhigh'⟩ := exists_canonicalIn .binary64 (m := 8 * m + 1) (by omega)
    (by dsimp only at hlt ⊢; omega) hmin'
  rw [Nat.cast_sub (by omega)] at hlow'
  push_cast at hlow' hhigh'
  rw [abs_le] at hnear
  have hle := hhigh.extent_roundWithAccuracy_le s hM hE (by linarith)
  have hge := hlow.le_extent_roundWithAccuracy s hM hE (by linarith)
  obtain ⟨n, -, ⟨-, hround⟩ | ⟨M', E', H, hround, hcanonical, -⟩⟩ := roundWithAccuracy_eq s hM hE
  · rw [hround, extent_zero] at hge
    exact absurd (WithTop.coe_le_coe.mp hge) hlow.pos_mul.not_ge
  · rw [hround, extent_finite, WithTop.coe_le_coe] at hle hge
    refine ⟨M', E', hcanonical, hround, ?_⟩
    rw [abs_le]
    constructor <;> linarith

/-- Rounding twice is rounding once. -/
lemma Rerounds.narrowed_stored (h : Rerounds q) (hw : IsRounded .binary64 s q w)
    (hw' : IsRounded .binary32 s q w') : narrowed (stored .binary64 w) = w' := by
  cases h with
  | @exact m e h value lt =>
    subst value
    rw [hw.unique (h.isRounded s), h.stored_eq s (by decide) lt]
    exact (IsRounded.round _ s h.pos e).unique hw'
  | @near m e h lt le near =>
    obtain ⟨M, E, H, rfl, hnear⟩ := hw.near h near
    have hbound : (M * 2 ^ E : ℚ) < 2 ^ (1024 : ℤ) :=
      calc (M * 2 ^ E : ℚ) ≤ m * 2 ^ e + 2 ^ (e - 3) := by linarith [(abs_le.mp hnear).2]
        _ < 2 ^ (128 : ℤ) + 2 ^ (128 : ℤ) :=
          add_lt_add (h.lt_two_zpow_of_le le) (zpow_lt_zpow_right₀ one_lt_two (by omega))
        _ = 2 ^ (129 : ℤ) := by rw [← two_mul, ← zpow_one_add₀ two_ne_zero]; rfl
        _ ≤ 2 ^ (1024 : ℤ) := zpow_le_zpow_right₀ one_le_two (by decide)
    rw [H.stored_eq s (by decide) hbound, hw'.eq_of_near h lt near]
    exact (IsRounded.round _ s H.pos E).eq_of_near h lt hnear

/-! ### Products -/

lemma CanonicalIn.isRounded_mul (h : CanonicalIn spec m e) (h' : CanonicalIn spec m' e')
    (s s' : Sign) : IsRounded spec (s * s') (m * 2 ^ e * (m' * 2 ^ e'))
      (UnpackedFloat.mul spec (.finite s m e h.pos) (.finite s' m' e' h'.pos)) :=
  ⟨_, _, Nat.mul_pos h.pos h'.pos, h.le_lastExponentIn_mul h', mul_zpow_add .., rfl⟩

/-- Binary64 has the products of entries. -/
lemma rerounds_mul (h : CanonicalIn .binary32 m e) (he : e ≤ 104) (h' : CanonicalIn .binary32 m' e')
    (he' : e' ≤ 104) : Rerounds (m * 2 ^ e * (m' * 2 ^ e')) := by
  have hbits : m * m' < 2 ^ 53 :=
    (Nat.mul_lt_mul'' h.lt h'.lt).trans_le (by decide)
  have hmin : -149 ≤ e := h.le_exponent
  have hmin' : -149 ≤ e' := h'.le_exponent
  have hleast : Format.binary64.minExponent = -1074 := rfl
  obtain ⟨M, E, H, value⟩ := exists_canonicalIn .binary64 (e := e + e')
    (Nat.mul_pos h.pos h'.pos) hbits (by omega)
  refine .exact H (value.trans (mul_zpow_add ..)) ?_
  calc (m * 2 ^ e * (m' * 2 ^ e') : ℚ) < 2 ^ (128 : ℤ) * 2 ^ (128 : ℤ) :=
        mul_lt_mul'' (h.lt_two_zpow_of_le he) (h'.lt_two_zpow_of_le he') h.pos_mul.le h'.pos_mul.le
    _ = 2 ^ (256 : ℤ) := by rw [← zpow_add₀ two_ne_zero]; rfl
    _ ≤ 2 ^ (1024 : ℤ) := zpow_le_zpow_right₀ one_le_two (by decide)

/-! ### Differences -/

/-- The sign of a number that is not zero. -/
def signOf (q : ℚ) : Sign := if q < 0 then .negative else .positive

/-- A number with a sign. -/
def signed (s : Sign) (q : ℚ) : ℚ :=
  match s with
  | .negative => -q
  | .positive => q

lemma abs_signed (s : Sign) (hq : 0 ≤ q) : |signed s q| = q := by
  cases s with
  | negative => exact (abs_neg q).trans (abs_of_nonneg hq)
  | positive => exact abs_of_nonneg hq

lemma signed_mul (s : Sign) (x y : ℚ) : signed s (x * y) = signed s x * y := by
  cases s with
  | negative => exact (neg_mul x y).symm
  | positive => rfl

lemma apply_cast (s : Sign) (m : ℕ) : ((s.apply m : ℤ) : ℚ) = signed s m := by
  cases s <;> simp [Sign.apply, signed]

/-- A number that is given by an integer is rounded with its sign, and zero is the given zero. -/
lemma normalize_cases (spec : Format) (z : ℤ) (c : ℤ) :
    z = 0 ∧ UnpackedFloat.normalize spec z c s = .zero s ∨
      z ≠ 0 ∧ IsRounded spec (signOf (z * 2 ^ c)) |(z * 2 ^ c : ℚ)|
        (UnpackedFloat.normalize spec z c s) := by
  have hpos : (0 : ℚ) < 2 ^ c := zpow_pos two_pos c
  -- the sign of the integer is taken out, and its size rounded
  rcases lt_trichotomy z 0 with hz | rfl | hz
  · right
    have hcast : (z : ℚ) < 0 := by exact_mod_cast hz
    have hneg : (z * 2 ^ c : ℚ) < 0 := mul_neg_of_neg_of_pos hcast hpos
    have hnat : (((-z).toNat : ℕ) : ℚ) = -z := by
      rw [← Int.cast_natCast, Int.toNat_of_nonneg (by omega), Int.cast_neg]
    have hnormalize : UnpackedFloat.normalize spec z c s =
        UnpackedFloat.round spec .negative (-z).toNat c := by
      rw [UnpackedFloat.normalize, compare_lt_iff_lt.mpr hz]
    rw [signOf, if_pos hneg, abs_of_neg hneg, hnormalize, ← neg_mul, ← hnat]
    exact ⟨hz.ne, .round spec .negative (by omega) c⟩
  · exact .inl ⟨rfl, rfl⟩
  · right
    have hcast : (0 : ℚ) < z := by exact_mod_cast hz
    have hnonneg : (0 : ℚ) ≤ z * 2 ^ c := (mul_pos hcast hpos).le
    have hnat : ((z.toNat : ℕ) : ℚ) = z := by
      rw [← Int.cast_natCast, Int.toNat_of_nonneg hz.le]
    have hnormalize : UnpackedFloat.normalize spec z c s =
        UnpackedFloat.round spec .positive z.toNat c := by
      rw [UnpackedFloat.normalize, compare_gt_iff_gt.mpr hz]
    rw [signOf, if_neg hnonneg.not_gt, abs_of_nonneg hnonneg, hnormalize, ← hnat]
    exact ⟨hz.ne', .round spec .positive (by omega) c⟩

/-- A difference of finite numbers is zero, or the exact difference is rounded. -/
lemma sub_cases (spec : Format) (s s' : Sign) (hm : 0 < m) (hm' : 0 < m') (hq : q =
    signed s (m * 2 ^ e) - signed s' (m' * 2 ^ e')) :
    q = 0 ∧ UnpackedFloat.sub spec (.finite s m e hm) (.finite s' m' e' hm') = .zero .positive ∨
      q ≠ 0 ∧ IsRounded spec (signOf q) |q|
        (UnpackedFloat.sub spec (.finite s m e hm) (.finite s' m' e' hm')) := by
  obtain ⟨-, hc, hvalue⟩ := decreaseExponent_spec hm e (min e e')
  obtain ⟨-, hc', hvalue'⟩ := decreaseExponent_spec hm' e' (min e e')
  rw [min_eq_right (min_le_left e e')] at hc
  rw [min_eq_right (min_le_right e e')] at hc'
  rw [hc] at hvalue
  rw [hc'] at hvalue'
  -- on the lesser exponent both numbers are integers, so that nothing is lost before rounding
  have hexact : ((s.apply (decreaseExponent m e (min e e')).1 -
      s'.apply (decreaseExponent m' e' (min e e')).1 : ℤ) * 2 ^ min e e' : ℚ) = q := by
    rw [hq, ← hvalue, ← hvalue', signed_mul, signed_mul, ← sub_mul, Int.cast_sub, apply_cast,
      apply_cast]
  have hzero : (s.apply (decreaseExponent m e (min e e')).1 -
      s'.apply (decreaseExponent m' e' (min e e')).1 : ℤ) = 0 ↔ q = 0 := by
    rw [← hexact, mul_eq_zero_iff_right (zpow_ne_zero _ two_ne_zero), Int.cast_eq_zero]
  have hcases := normalize_cases (s := .positive) spec
    (s.apply (decreaseExponent m e (min e e')).1 -
      s'.apply (decreaseExponent m' e' (min e e')).1) (min e e')
  rwa [hexact, hzero, ne_eq, hzero] at hcases

section Difference

variable (h : CanonicalIn .binary32 m e) (he : e ≤ 104) (h' : CanonicalIn .binary32 m' e')
  (he' : e' ≤ 104)
include h h'

/-- A difference of entries of which one is much smaller is near the other. -/
lemma abs_sub_le_of_gap (hgap : e' + 27 ≤ e) :
    |(|signed s (m * 2 ^ e) - signed s' (m' * 2 ^ e')| - m * 2 ^ e)| ≤ (2 : ℚ) ^ (e - 3) :=
  calc |(|signed s (m * 2 ^ e) - signed s' (m' * 2 ^ e')| - m * 2 ^ e)|
      = |(|signed s (m * 2 ^ e) - signed s' (m' * 2 ^ e')| - |signed s (m * 2 ^ e)|)| := by
        rw [abs_signed s h.pos_mul.le]
    _ ≤ |signed s (m * 2 ^ e) - signed s' (m' * 2 ^ e') - signed s (m * 2 ^ e)| :=
        abs_abs_sub_abs_le_abs_sub ..
    _ = m' * 2 ^ e' := by rw [sub_sub_cancel_left, abs_neg, abs_signed s' h'.pos_mul.le]
    _ ≤ 2 ^ (e - 3) :=
        h'.lt_zpow.le.trans (zpow_le_zpow_right₀ one_le_two (by dsimp only; omega))

include he he'

/-- Binary64 has the differences of entries whose exponents are not far apart. -/
lemma rerounds_sub_of_close (hq : q = signed s (m * 2 ^ e) - signed s' (m' * 2 ^ e'))
    (hne : q ≠ 0) (hclose : e < e' + 27) (hclose' : e' < e + 27) : Rerounds |q| := by
  have hmin : -149 ≤ min e e' := le_min h.le_exponent h'.le_exponent
  have hleast : Format.binary64.minExponent = -1074 := rfl
  have hshift {n : ℕ} {d : ℤ} (hn : n < 2 ^ 24) (hd : d - min e e' ≤ 26) :
      n * 2 ^ (d - min e e').toNat < 2 ^ 50 :=
    calc n * 2 ^ (d - min e e').toNat < 2 ^ 24 * 2 ^ (d - min e e').toNat := by gcongr
      _ ≤ 2 ^ 24 * 2 ^ 26 := by gcongr <;> omega
      _ = 2 ^ 50 := by norm_num
  have hbits := hshift h.lt (d := e) (by omega)
  have hbits' := hshift h'.lt (d := e') (by omega)
  -- on the lesser exponent both are integers of at most 50 bits
  generalize ha : m * 2 ^ (e - min e e').toNat = a at hbits
  generalize hb : m' * 2 ^ (e' - min e e').toNat = b at hbits'
  have hvalue : (a * 2 ^ min e e' : ℚ) = m * 2 ^ e :=
    ha ▸ mul_two_pow_mul_zpow m (min_le_left e e')
  have hvalue' : (b * 2 ^ min e e' : ℚ) = m' * 2 ^ e' :=
    hb ▸ mul_two_pow_mul_zpow m' (min_le_right e e')
  have hexact : q = (s.apply a - s'.apply b : ℤ) * 2 ^ min e e' := by
    rw [hq, ← hvalue, ← hvalue', signed_mul, signed_mul, ← sub_mul, Int.cast_sub, apply_cast,
      apply_cast]
  have habs : |q| = (s.apply a - s'.apply b : ℤ).natAbs * 2 ^ min e e' := by
    rw [hexact, abs_mul, abs_of_pos (zpow_pos two_pos _ : (0 : ℚ) < 2 ^ min e e'), Nat.cast_natAbs,
      Int.cast_abs]
  have hpos : 0 < (s.apply a - s'.apply b : ℤ).natAbs := by
    refine Int.natAbs_pos.mpr fun hzero => hne ?_
    rw [hexact, hzero, Int.cast_zero, zero_mul]
  have hlt : (s.apply a - s'.apply b : ℤ).natAbs < 2 ^ 53 := by
    cases s <;> cases s' <;> dsimp only [Sign.apply] <;> omega
  -- 53 bits are enough for the difference, so binary64 has it exactly
  obtain ⟨M, E, H, value⟩ := exists_canonicalIn .binary64 (e := min e e') hpos hlt (by omega)
  refine .exact H (value.trans habs.symm) ?_
  calc |q| ≤ |signed s (m * 2 ^ e)| + |signed s' (m' * 2 ^ e')| := hq ▸ abs_sub _ _
    _ = m * 2 ^ e + m' * 2 ^ e' := by rw [abs_signed s h.pos_mul.le, abs_signed s' h'.pos_mul.le]
    _ < 2 ^ (128 : ℤ) + 2 ^ (128 : ℤ) :=
      add_lt_add (h.lt_two_zpow_of_le he) (h'.lt_two_zpow_of_le he')
    _ = 2 ^ (129 : ℤ) := by rw [← two_mul, ← zpow_one_add₀ two_ne_zero]; rfl
    _ ≤ 2 ^ (1024 : ℤ) := zpow_le_zpow_right₀ one_le_two (by decide)

/-- Differences of entries may be rounded twice. -/
lemma rerounds_sub (hq : q = signed s (m * 2 ^ e) - signed s' (m' * 2 ^ e')) (hne : q ≠ 0) :
    Rerounds |q| := by
  have hmin : -149 ≤ e := h.le_exponent
  have hmin' : -149 ≤ e' := h'.le_exponent
  rcases lt_or_ge e (e' + 27) with hclose | hgap
  · rcases lt_or_ge e' (e + 27) with hclose' | hgap
    · exact rerounds_sub_of_close h he h' he' hq hne hclose hclose'
    · refine .near h' (by omega) he' ?_
      rw [hq, abs_sub_comm (signed s _)]
      exact abs_sub_le_of_gap h' h hgap
  · refine .near h (by omega) he ?_
    rw [hq]
    exact abs_sub_le_of_gap h h' hgap

end Difference

/-! ### Entries -/

namespace Widens

/-- A number that is the same in both formats is stored and rounded as it is. -/
lemma narrowed_stored (h : Widens u w) : narrowed (stored .binary64 w) = u := by
  have hstored : stored .binary64 w = w := by
    cases h with
    | notANumber => rfl
    | infinity s => exact stored_infinity s
    | zero s => exact stored_zero s
    | finite s h he H value =>
      refine H.stored_eq s (by decide) ((value ▸ h.lt_two_zpow_of_le he).trans_le ?_)
      exact zpow_le_zpow_right₀ one_le_two (by decide)
  rw [hstored, h.narrowed_eq]

/-- Products in binary64 are rounded to products in binary32. -/
lemma mul (h : Widens u w) (h' : Widens u' w') :
    narrowed (stored .binary64 (UnpackedFloat.mul .binary64 w w')) =
      UnpackedFloat.mul .binary32 u u' := by
  cases h <;> cases h'
  case finite.finite s m M e E h he H value s' m' M' e' E' h' he' H' value' =>
    have hround := H.isRounded_mul H' s s'
    rw [value, value'] at hround
    exact (rerounds_mul h he h' he').narrowed_stored hround (h.isRounded_mul h' s s')
  -- other products are not rounded
  all_goals refine narrowed_stored ?_
  all_goals first | exact .notANumber | exact .infinity _ | exact .zero _

/-- Differences in binary64 are rounded to differences in binary32. -/
lemma sub (h : Widens u w) (h' : Widens u' w') :
    narrowed (stored .binary64 (UnpackedFloat.sub .binary64 w w')) =
      UnpackedFloat.sub .binary32 u u' := by
  cases h <;> cases h'
  case finite.finite s m M e E h he H value s' m' M' e' E' h' he' H' value' =>
    rcases sub_cases .binary32 s s' h.pos h'.pos rfl with ⟨hzero, hsub⟩ | ⟨hne, hround⟩
    · rcases sub_cases .binary64 s s' H.pos H'.pos rfl with ⟨-, hsub'⟩ | ⟨hne', -⟩
      · rw [hsub, hsub']
        exact (Widens.zero .positive).narrowed_stored
      · rw [value, value'] at hne'
        exact absurd hzero hne'
    · rcases sub_cases .binary64 s s' H.pos H'.pos rfl with ⟨hzero', -⟩ | ⟨-, hround'⟩
      · rw [value, value'] at hzero'
        exact absurd hzero' hne
      · rw [value, value'] at hround'
        exact (rerounds_sub h he h' he' rfl hne).narrowed_stored hround' hround
  -- other differences are not rounded
  all_goals refine narrowed_stored ?_
  case infinity.infinity s s' =>
    cases s <;> cases s' <;> first | exact .notANumber | exact .infinity _
  case zero.zero s s' => cases s <;> cases s' <;> exact .zero _
  case zero.finite s s' m M e E h he H value => exact .finite (-s') h he H value
  case finite.zero s m M e E h he H value s' => exact .finite s h he H value
  all_goals first | exact .notANumber | exact .infinity _

end Widens

variable (a b : Float32)

/-- A product of entries that is rounded to binary64 first is the product of the entries. -/
lemma narrow_mul_widen : narrow (widen a * widen b) = a * b := by
  apply Single.eq_of_unpack_eq
  rw [unpack_narrow, Single.unpack_mul]
  exact congrArg (stored .binary32) ((widens_widen a).mul (widens_widen b))

/-- A difference of entries that is rounded to binary64 first is the difference of the entries. -/
lemma narrow_sub_widen : narrow (widen a - widen b) = a - b := by
  apply Single.eq_of_unpack_eq
  rw [unpack_narrow]
  exact congrArg (stored .binary32) ((widens_widen a).sub (widens_widen b))

end Workforce
