import Workforce.Proofs.Mat.Summation
import Workforce.Proofs.Number.Entry

/-!
# Sums of entries

The sum of two numbers that are not negative is their exact sum, rounded. Rounding and storing are
monotone, so sums are too, and no sum is below its terms. In particular addition does not underflow.
-/

namespace Workforce

open Float.Model Float.Model.UnpackedFloat

variable {spec : Format} {u v w w' : UnpackedFloat} {x x' : WithTop ℚ} {m m' : ℕ} {e e' : ℤ}

/-! ### Rounding -/

/-- How many bits are kept of a number depends on its value only. -/
lemma lastExponentIn_congr (hm : 0 < m) (hm' : 0 < m')
    (h : (m * 2 ^ e : ℚ) = m' * 2 ^ e') : lastExponentIn spec m e = lastExponentIn spec m' e' := by
  have hlt : (2 : ℚ) ^ (m.log2 + e) < 2 ^ (m'.log2 + 1 + e') :=
    ((two_zpow_le hm).trans h.le).trans_lt lt_two_zpow
  have hlt' : (2 : ℚ) ^ (m'.log2 + e') < 2 ^ (m.log2 + 1 + e) :=
    ((two_zpow_le hm').trans h.ge).trans_lt lt_two_zpow
  have hexponent := (zpow_lt_zpow_iff_right₀ one_lt_two).mp hlt
  have hexponent' := (zpow_lt_zpow_iff_right₀ one_lt_two).mp hlt'
  rw [lastExponentIn_eq, lastExponentIn_eq]
  congr 1
  omega

/-- Decreasing an exponent does not change the value. -/
lemma decreaseExponent_spec (hm : 0 < m) (e c : ℤ) :
    0 < (decreaseExponent m e c).1 ∧ (decreaseExponent m e c).2 = min e c ∧
      ((decreaseExponent m e c).1 * 2 ^ (decreaseExponent m e c).2 : ℚ) = m * 2 ^ e := by
  have hshift : (decreaseExponent m e c).2 = min e c := by
    rw [decreaseExponent]
    dsimp only
    omega
  have hmantissa : (decreaseExponent m e c).1 = m * 2 ^ (e - min e c).toNat := by
    have hbits : (e - c).toNat = (e - min e c).toNat := by omega
    rw [decreaseExponent, Nat.shiftLeft_eq, hbits]
  rw [hshift, hmantissa]
  exact ⟨Nat.mul_pos hm (Nat.two_pow_pos _), rfl, mul_two_pow_mul_zpow m (min_le_left e c)⟩

/-- A number is given as many bits as are kept before it is rounded. -/
lemma exists_round_eq (spec : Format) (s : Sign) (hm : 0 < m) (e : ℤ) :
    ∃ m' e', 0 < m' ∧ e' ≤ lastExponentIn spec m' e' ∧ (m' * 2 ^ e' : ℚ) = m * 2 ^ e ∧
      UnpackedFloat.round spec s m e = roundWithAccuracy spec s m' e' .exact := by
  obtain ⟨hpos, hexponent, hvalue⟩ := decreaseExponent_spec hm e (lastExponentIn spec m e)
  refine ⟨_, _, hpos, ?_, hvalue, rfl⟩
  rw [lastExponentIn_congr hpos hm hvalue, hexponent]
  exact min_le_right _ _

/-- What a number that is not negative is rounded to. A zero may have either sign. -/
inductive RoundsTo (spec : Format) : WithTop ℚ → UnpackedFloat → Prop
  | zero (s : Sign) : RoundsTo spec 0 (.zero s)
  | finite {m : ℕ} {e : ℤ} (hm : 0 < m) (he : e ≤ lastExponentIn spec m e) :
    RoundsTo spec (m * 2 ^ e : ℚ) (roundWithAccuracy spec .positive m e .exact)
  | infinity : RoundsTo spec ⊤ (.infinity .positive)

namespace RoundsTo

lemma magnitudeIn (h : RoundsTo spec x w) : MagnitudeIn spec w := by
  cases h with
  | zero s => exact .zero s
  | finite hm he =>
    obtain ⟨n, -, ⟨-, hround⟩ | ⟨m', e', h, hround, hcanonical, -⟩⟩ :=
      roundWithAccuracy_eq .positive hm he <;> rw [hround]
    · exact .zero .positive
    · exact .finite hcanonical
  | infinity => exact .infinity

lemma extent_mono (h : RoundsTo spec x w) (h' : RoundsTo spec x' w') (hle : x ≤ x') :
    extent w ≤ extent w' := by
  cases h with
  | zero s => exact extent_nonneg w'
  | @finite m e hm he =>
    have hpos : (0 : ℚ) < m * 2 ^ e := by positivity
    cases h' with
    | zero s => exact absurd (WithTop.coe_le_coe.mp hle) hpos.not_ge
    | finite hm' he' =>
      exact extent_roundWithAccuracy_mono _ _ hm he hm' he' (WithTop.coe_le_coe.mp hle)
    | infinity => exact le_top
  | infinity =>
    cases h' with
    | zero s => exact absurd hle (WithTop.coe_lt_top 0).not_ge
    | finite hm' he' => exact absurd hle (WithTop.coe_lt_top _).not_ge
    | infinity => exact le_rfl

end RoundsTo

lemma normalize_natCast (hm : 0 < m) :
    UnpackedFloat.normalize spec m e .positive = UnpackedFloat.round spec .positive m e := by
  rw [UnpackedFloat.normalize, compare_gt_iff_gt.mpr (by exact_mod_cast hm)]
  rfl

/-- Two positive numbers are brought to the smaller exponent, added, and rounded. -/
lemma roundsTo_add (hm : 0 < m) (hm' : 0 < m') :
    RoundsTo spec (m * 2 ^ e + m' * 2 ^ e' : ℚ)
      (UnpackedFloat.add spec (.finite .positive m e hm) (.finite .positive m' e' hm')) := by
  obtain ⟨hk, hc, hvalue⟩ := decreaseExponent_spec hm e (min e e')
  obtain ⟨-, hc', hvalue'⟩ := decreaseExponent_spec hm' e' (min e e')
  rw [min_eq_right (min_le_left e e')] at hc
  rw [min_eq_right (min_le_right e e')] at hc'
  rw [hc] at hvalue
  rw [hc'] at hvalue'
  obtain ⟨M, c, hpos, hle, hsum, hround⟩ := exists_round_eq spec .positive
    (Nat.add_pos_left hk (decreaseExponent m' e' (min e e')).1) (min e e')
  have hadd : UnpackedFloat.add spec (.finite .positive m e hm) (.finite .positive m' e' hm') =
      roundWithAccuracy spec .positive M c .exact := by
    rw [← hround]
    exact normalize_natCast (Nat.add_pos_left hk _)
  rw [hadd, ← hvalue, ← hvalue', ← add_mul, ← Nat.cast_add, ← hsum]
  exact .finite hpos hle

/-! ### Storing -/

/-- A finite number is stored as it is unless it is too large. -/
lemma CanonicalIn.unpack_packed (h : CanonicalIn spec m e) :
    UnpackedFloat.unpack spec (UnpackedFloat.pack spec (.finite .positive m e h.pos)) =
      if e ≤ greatestExponent spec then .finite .positive m e h.pos else .infinity .positive := by
  split_ifs with he
  · exact unpack_packed_finite h he
  · rw [packed_of_greatestExponent_lt h (not_le.mp he), unpack_packedInfinity]

lemma unpack_packed_infinity (s : Sign) :
    UnpackedFloat.unpack spec (UnpackedFloat.pack spec (.infinity s)) = .infinity s :=
  unpack_packedInfinity s

namespace MagnitudeIn

/-- A number of a format is rounded to itself. -/
lemma roundsTo (h : MagnitudeIn spec u) : RoundsTo spec (extent u) u := by
  cases h with
  | zero s => exact .zero s
  | finite h =>
    have hround := RoundsTo.finite h.pos h.lastExponentIn_eq.ge
    rwa [h.roundWithAccuracy_eq] at hround
  | infinity => exact .infinity

lemma stored (h : MagnitudeIn spec u) :
    MagnitudeIn spec (UnpackedFloat.unpack spec (UnpackedFloat.pack spec u)) := by
  cases h with
  | zero s =>
    rw [unpack_packed_zero]
    exact .zero s
  | finite h =>
    rw [h.unpack_packed]
    split_ifs
    · exact .finite h
    · exact .infinity
  | infinity =>
    rw [unpack_packed_infinity]
    exact .infinity

lemma extent_le_extent_stored (h : MagnitudeIn spec u) :
    extent u ≤ extent (UnpackedFloat.unpack spec (UnpackedFloat.pack spec u)) := by
  cases h with
  | zero s => exact extent_nonneg _
  | finite h =>
    rw [h.unpack_packed]
    split_ifs
    · exact le_rfl
    · exact le_top
  | infinity => rw [unpack_packed_infinity]

/-- Storing is monotone: what is above a number that is too large is too large itself. -/
lemma extent_stored_mono (hu : MagnitudeIn spec u) (hv : MagnitudeIn spec v)
    (hle : extent u ≤ extent v) :
    extent (UnpackedFloat.unpack spec (UnpackedFloat.pack spec u)) ≤
      extent (UnpackedFloat.unpack spec (UnpackedFloat.pack spec v)) := by
  cases hu with
  | zero s =>
    rw [unpack_packed_zero]
    exact extent_nonneg _
  | finite h =>
    cases hv with
    | zero s => exact absurd hle (extent_finite_pos _ h.pos).not_ge
    | finite h' =>
      rw [h.unpack_packed, h'.unpack_packed]
      -- the cases are which of the two numbers have exponents that can be stored
      split_ifs with he he'
      · exact hle
      · exact le_top
      · exact absurd (WithTop.coe_le_coe.mp hle) (h'.lt_of_exponent_lt h (by omega)).not_ge
      · exact le_rfl
    | infinity =>
      rw [unpack_packed_infinity]
      exact le_top
  | infinity =>
    exact (le_top.trans hle).trans hv.extent_le_extent_stored

/-! ### Adding -/

/-- A sum is the exact sum, rounded. -/
lemma add (hu : MagnitudeIn spec u) (hv : MagnitudeIn spec v) :
    RoundsTo spec (extent u + extent v) (UnpackedFloat.add spec u v) := by
  cases hu with
  | zero s =>
    cases hv with
    | zero s' =>
      rw [extent_zero, extent_zero, add_zero]
      cases s <;> cases s' <;> exact .zero _
    | finite h' =>
      rw [extent_zero, zero_add]
      exact (MagnitudeIn.finite h').roundsTo
    | infinity => exact .infinity
  | finite h =>
    cases hv with
    | zero s' =>
      rw [extent_zero, add_zero]
      exact (MagnitudeIn.finite h).roundsTo
    | finite h' => exact roundsTo_add h.pos h'.pos
    | infinity => exact .infinity
  | infinity =>
    cases hv <;> exact .infinity

end MagnitudeIn

/-! ### Entries -/

namespace Single

variable {a b c : Float32}

lemma zero_le_iff : 0 ≤ a ↔ MagnitudeIn .binary32 a.toModel.unpack := by
  rw [le_iff, unpack_zero]
  constructor
  · intro h
    rcases hu : a.toModel.unpack with (_ | _) | _ | s | ⟨_ | _, m, e, hm⟩ <;> rw [hu] at h
    case infinity.positive => exact .infinity
    case zero => exact .zero s
    case finite.positive => exact .finite (canonicalIn_of_unpack (by decide) hu).1
    all_goals cases h
  · intro h
    exact (MagnitudeIn.zero .positive).le_iff h |>.mpr (extent_nonneg _)

lemma beq_zero_iff_of_zero_le (h : 0 ≤ a) : (a == 0) = true ↔ size a = 0 := by
  rw [beq_zero_iff_size, and_iff_right (isProper_of_le h).2]

lemma le_iff_size_le (ha : 0 ≤ a) (hb : 0 ≤ b) : a ≤ b ↔ size a ≤ size b := by
  rw [le_iff]
  exact (zero_le_iff.mp ha).le_iff (zero_le_iff.mp hb)

lemma not_le_zero_iff (ha : 0 ≤ a) : ¬ a ≤ 0 ↔ 0 < size a := by
  rw [le_iff_size_le ha (zero_le_iff.mpr (.zero .positive)), not_le]
  rfl

lemma le_zero_iff (ha : 0 ≤ a) : a ≤ 0 ↔ (a == 0) = true := by
  rw [← not_iff_not, not_le_zero_iff ha, beq_zero_iff_of_zero_le ha]
  exact (extent_nonneg _).lt_iff_ne'

lemma unpack_add (a b : Float32) : (a + b).toModel.unpack =
    UnpackedFloat.unpack .binary32 (UnpackedFloat.pack .binary32
      (UnpackedFloat.add .binary32 a.toModel.unpack b.toModel.unpack)) := rfl

lemma zero_le_add (ha : 0 ≤ a) (hb : 0 ≤ b) : 0 ≤ a + b := by
  rw [zero_le_iff, unpack_add]
  exact ((zero_le_iff.mp ha).add (zero_le_iff.mp hb)).magnitudeIn.stored

/-- Sums grow with their terms. -/
lemma size_add_mono {a' b' : Float32} (ha : 0 ≤ a) (hb : 0 ≤ b) (ha' : 0 ≤ a') (hb' : 0 ≤ b')
    (haa : size a ≤ size a') (hbb : size b ≤ size b') : size (a + b) ≤ size (a' + b') := by
  have hsum := (zero_le_iff.mp ha).add (zero_le_iff.mp hb)
  have hsum' := (zero_le_iff.mp ha').add (zero_le_iff.mp hb')
  rw [size, size, unpack_add, unpack_add]
  exact hsum.magnitudeIn.extent_stored_mono hsum'.magnitudeIn
    (hsum.extent_mono hsum' (add_le_add haa hbb))

/-- A sum is not below its terms. -/
lemma size_le_size_add (ha : 0 ≤ a) (hb : 0 ≤ b) :
    size a ≤ size (a + b) ∧ size b ≤ size (a + b) := by
  have hsum := (zero_le_iff.mp ha).add (zero_le_iff.mp hb)
  have hstored := hsum.magnitudeIn.extent_le_extent_stored
  rw [size, size, size, unpack_add]
  constructor
  · refine ((zero_le_iff.mp ha).roundsTo.extent_mono hsum ?_).trans hstored
    exact le_add_of_nonneg_right (extent_nonneg _)
  · refine ((zero_le_iff.mp hb).roundsTo.extent_mono hsum ?_).trans hstored
    exact le_add_of_nonneg_left (extent_nonneg _)

/-- Addition does not underflow. -/
lemma add_beq_zero_iff (ha : 0 ≤ a) (hb : 0 ≤ b) :
    (a + b == 0) = true ↔ (a == 0) = true ∧ (b == 0) = true := by
  have hzero : (0 : Float32) ≤ 0 := zero_le_iff.mpr (.zero .positive)
  rw [beq_zero_iff_of_zero_le (zero_le_add ha hb), beq_zero_iff_of_zero_le ha,
    beq_zero_iff_of_zero_le hb]
  constructor
  · intro h
    obtain ⟨hle, hle'⟩ := size_le_size_add ha hb
    rw [h] at hle hle'
    exact ⟨le_antisymm hle (extent_nonneg _), le_antisymm hle' (extent_nonneg _)⟩
  · rintro ⟨ha', hb'⟩
    have hle : size (a + b) ≤ size (0 + 0) :=
      size_add_mono ha hb hzero hzero ha'.le hb'.le
    exact le_antisymm hle (extent_nonneg _)

/-- In every order, a sum of numbers that are not negative is zero only if all of them are. -/
lemma beq_zero_iff_of_addsUp {as : List Float32} (h : AddsUp id (· + ·) as a)
    (has : ∀ b ∈ as, 0 ≤ b) : 0 ≤ a ∧ ((a == 0) = true ↔ ∀ b ∈ as, (b == 0) = true) :=
  h.iff_forall_mem (P := fun a : Float32 => (a == 0) = true)
    ⟨zero_le_iff.mpr (.zero .positive), rfl⟩
    (fun _ _ ha hb => ⟨zero_le_add ha hb, add_beq_zero_iff ha hb⟩) has

end Single

end Workforce
