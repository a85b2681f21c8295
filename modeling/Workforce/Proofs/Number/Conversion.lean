import Workforce.Proofs.Number.Addition

/-!
# Converting between formats

What a positive number is rounded to depends on the number alone (`IsRounded`), not on the mantissa
and the exponent that it is given by. An entry is read as the binary64 number of the same value, so
it is found again when that number is rounded to an entry.
-/

namespace Workforce

open Float.Model Float.Model.UnpackedFloat

variable {spec : Format} {s : Sign} {u v w w' : UnpackedFloat} {q : ℚ} {m m' : ℕ} {e e' : ℤ}

/-! ### Rounding a number -/

/-- What a positive number is rounded to, with a sign. -/
def IsRounded (spec : Format) (s : Sign) (q : ℚ) (w : UnpackedFloat) : Prop :=
  ∃ m e, 0 < m ∧ e ≤ lastExponentIn spec m e ∧ (m * 2 ^ e : ℚ) = q ∧
    w = roundWithAccuracy spec s m e .exact

lemma IsNearestEven.unique {n n' : ℕ} (h : IsNearestEven q n) (h' : IsNearestEven q n') : n = n' :=
  le_antisymm (h.mono h' le_rfl) (h'.mono h le_rfl)

namespace IsRounded

/-- Rounding depends on the number alone. -/
lemma unique (h : IsRounded spec s q w) (h' : IsRounded spec s q w') : w = w' := by
  obtain ⟨m, e, hm, he, rfl, rfl⟩ := h
  obtain ⟨m', e', hm', he', heq, rfl⟩ := h'
  have hlast : lastExponentIn spec m' e' = lastExponentIn spec m e :=
    lastExponentIn_congr hm' hm heq
  have hscaled : (m' * 2 ^ (e' - lastExponentIn spec m e) : ℚ) =
      m * 2 ^ (e - lastExponentIn spec m e) := by
    rw [zpow_sub₀ two_ne_zero, zpow_sub₀ two_ne_zero, mul_div, mul_div, heq]
  obtain ⟨n, hn, hround⟩ := roundWithAccuracy_eq s hm he
  obtain ⟨n', hn', hround'⟩ := roundWithAccuracy_eq s hm' he'
  rw [hlast, hscaled] at hn'
  rw [hlast] at hround'
  -- both representations are rounded at one exponent, and so to one integer
  obtain rfl := hn'.unique hn
  rcases hround with ⟨hzero, hround⟩ | ⟨M, E, hM, hround, hcanonical, hvalue⟩ <;>
    rcases hround' with ⟨hzero', hround'⟩ | ⟨M', E', hM', hround', hcanonical', hvalue'⟩
  · rw [hround, hround']
  · rw [hzero, Nat.cast_zero, zero_mul] at hvalue'
    exact absurd hvalue' hcanonical'.pos_mul.ne'
  · rw [hzero', Nat.cast_zero, zero_mul] at hvalue
    exact absurd hvalue hcanonical.pos_mul.ne'
  · obtain ⟨rfl, rfl⟩ := hcanonical.eq_of_mul_eq hcanonical' (hvalue.trans hvalue'.symm)
    rw [hround, hround']

lemma round (spec : Format) (s : Sign) (hm : 0 < m) (e : ℤ) :
    IsRounded spec s (m * 2 ^ e) (UnpackedFloat.round spec s m e) := by
  obtain ⟨m', e', hm', he', hvalue, hround⟩ := exists_round_eq spec s hm e
  exact ⟨m', e', hm', he', hvalue, hround⟩

end IsRounded

lemma CanonicalIn.isRounded (h : CanonicalIn spec m e) (s : Sign) :
    IsRounded spec s (m * 2 ^ e) (.finite s m e h.pos) :=
  ⟨m, e, h.pos, h.lastExponentIn_eq.ge, rfl, (h.roundWithAccuracy_eq s).symm⟩

/-- A number is in a format if it has no more bits than the format. -/
lemma exists_canonicalIn (spec : Format) (hm : 0 < m)
    (hlt : m < 2 ^ (spec.mantissaBitsWithoutImplicit + 1)) (he : spec.minExponent ≤ e) :
    ∃ m' e', CanonicalIn spec m' e' ∧ (m' * 2 ^ e' : ℚ) = m * 2 ^ e := by
  have hlog : m.log2 < spec.mantissaBitsWithoutImplicit + 1 := (Nat.log2_lt hm.ne').mpr hlt
  have hlast : lastExponentIn spec m e ≤ e := by
    rw [lastExponentIn_eq]
    omega
  have hvalue := mul_two_pow_mul_zpow m hlast
  have hmantissa : ((m * 2 ^ (e - lastExponentIn spec m e).toNat : ℕ) : ℚ) =
      m * 2 ^ (e - lastExponentIn spec m e) := by
    rw [zpow_sub₀ two_ne_zero, mul_div, ← hvalue, mul_div_assoc, div_self (by positivity), mul_one]
  refine ⟨_, _, ⟨by positivity, ?_, minExponent_le_lastExponentIn, ?_⟩, hvalue⟩
  · rw [← Nat.cast_lt (α := ℚ), hmantissa]
    exact mul_zpow_lt_two_pow
  · refine (em (lastExponentIn spec m e = spec.minExponent)).symm.imp_left fun hne => ?_
    rw [← Nat.cast_le (α := ℚ), hmantissa]
    exact two_pow_le_mul_zpow hm hne

/-! ### Stored numbers -/

/-- A number as it is read once it is stored. -/
def stored (spec : Format) (u : UnpackedFloat) : UnpackedFloat :=
  UnpackedFloat.unpack spec (UnpackedFloat.pack spec u)

@[simp] lemma stored_zero (s : Sign) : stored spec (.zero s) = .zero s := unpack_packed_zero s

@[simp] lemma stored_infinity (s : Sign) : stored spec (.infinity s) = .infinity s :=
  unpack_packed_infinity s

lemma stored_stored (hspec : spec.minExponent ≤ greatestExponent spec) (u : UnpackedFloat) :
    stored spec (stored spec u) = stored spec u := by
  rw [stored, stored, packed_unpack hspec valid_pack]

/-- A number that is not beyond a power of two which the format has is stored as it is. -/
lemma CanonicalIn.stored_eq (h : CanonicalIn spec m e) (s : Sign)
    (hspec : spec.minExponent ≤ greatestExponent spec)
    (hle : (m * 2 ^ e : ℚ) < 2 ^ (spec.mantissaBitsWithoutImplicit + 1 + greatestExponent spec)) :
    stored spec (.finite s m e h.pos) = .finite s m e h.pos := by
  refine unpack_packed_finite h ?_
  by_contra! hlt
  have hpower := h.zpow_le (hspec.trans_lt hlt)
  have hexponent := (zpow_lt_zpow_iff_right₀ one_lt_two).mp (hpower.trans_lt hle)
  omega

/-! ### Entries -/

/-- Numbers of one value, in binary32 and in binary64. -/
inductive Widens : UnpackedFloat → UnpackedFloat → Prop
  | notANumber : Widens .notANumber .notANumber
  | infinity (s : Sign) : Widens (.infinity s) (.infinity s)
  | zero (s : Sign) : Widens (.zero s) (.zero s)
  | finite (s : Sign) {m M : ℕ} {e E : ℤ} (h : CanonicalIn .binary32 m e) (he : e ≤ 104)
    (H : CanonicalIn .binary64 M E) (value : (M * 2 ^ E : ℚ) = m * 2 ^ e) :
    Widens (.finite s m e h.pos) (.finite s M E H.pos)

/-- A number as it is before it is stored in binary32. -/
def narrowed : UnpackedFloat → UnpackedFloat
  | .finite s m e _ => UnpackedFloat.round .binary32 s m e
  | special => special

lemma Widens.narrowed_eq (h : Widens u w) : narrowed w = u := by
  cases h with
  | notANumber | infinity | zero => rfl
  | finite s h _ H value => exact (value ▸ IsRounded.round _ s H.pos _).unique (h.isRounded s)

lemma CanonicalIn.lt_two_zpow_of_le (h : CanonicalIn .binary32 m e) (he : e ≤ 104) :
    (m * 2 ^ e : ℚ) < 2 ^ (128 : ℤ) :=
  h.lt_zpow.trans_le (zpow_le_zpow_right₀ one_le_two (by dsimp only; omega))

variable {a b : Float32}

lemma widens_widen (a : Float32) : Widens a.toModel.unpack (widen a).toModel.unpack := by
  have hspec : Format.binary64.minExponent ≤ greatestExponent .binary64 := by decide
  have hread : (widen a).toModel.unpack = stored .binary64 (widened a.toModel.unpack) :=
    (unpack_widen a).trans (stored_stored hspec _)
  rw [hread]
  cases hu : a.toModel.unpack with
  | notANumber => exact .notANumber
  | infinity s =>
    change Widens _ (stored _ (.infinity s))
    rw [stored_infinity]
    exact .infinity s
  | zero s =>
    change Widens _ (stored _ (.zero s))
    rw [stored_zero]
    exact .zero s
  | finite s m e hm =>
    obtain ⟨h, he⟩ := canonicalIn_of_unpack (by decide) hu
    have hmin := h.le_exponent
    obtain ⟨M, E, H, value⟩ := exists_canonicalIn .binary64 (e := e) h.pos
      (h.lt.trans (by decide)) (hmin.trans' (by decide))
    -- the wider format has the number itself, so widening rounds nothing
    have hround : widened (.finite s m e hm) = .finite s M E H.pos :=
      (IsRounded.round _ s hm e).unique (value ▸ H.isRounded s)
    have hlt : (M * 2 ^ E : ℚ) < 2 ^ (128 : ℤ) := value ▸ h.lt_two_zpow_of_le he
    rw [hround, H.stored_eq s hspec (hlt.trans_le (zpow_le_zpow_right₀ one_le_two (by decide)))]
    exact .finite s h he H value

lemma unpack_narrow (x : Float) :
    (narrow x).toModel.unpack = stored .binary32 (narrowed x.toModel.unpack) :=
  stored_stored (by decide) (narrowed x.toModel.unpack)

namespace Single

/-- Entries that are read as one number are the same. -/
lemma eq_of_unpack_eq (h : a.toModel.unpack = b.toModel.unpack) : a = b := by
  have hpacked (c : Float32) :
      UnpackedFloat.pack .binary32 c.toModel.unpack = c.toModel.toBits.toBitVec :=
    packed_unpack (by decide) c.toModel.valid
  have hbits : a.toModel.toBits = b.toModel.toBits := by
    rw [← UInt32.toBitVec_inj, ← hpacked, h, hpacked]
  have hmodel : a.toModel = b.toModel := by
    rw [Float32.Model.mk.injEq]
    exact hbits
  cases a
  cases b
  exact congrArg Float32.ofModel hmodel

lemma stored_unpack (a : Float32) : stored .binary32 a.toModel.unpack = a.toModel.unpack :=
  congrArg (UnpackedFloat.unpack .binary32) (packed_unpack (by decide) a.toModel.valid)

end Single

/-- Reading an entry as a scalar loses nothing of it. -/
theorem narrow_widen (a : Float32) : narrow (widen a) = a := by
  apply Single.eq_of_unpack_eq
  rw [unpack_narrow, (widens_widen a).narrowed_eq, Single.stored_unpack]

end Workforce
