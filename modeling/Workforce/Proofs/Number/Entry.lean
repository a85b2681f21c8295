import Workforce.Proofs.Number.NonFinite
import Workforce.Proofs.Number.Peak

/-!
# Entries as numbers

A finite binary32 number stands for a rational number, whose absolute value is its `value`. Entries
that are not negative are ordered by their size, which is their value or infinite. A product of
finite entries is finite unless the product of their values is too large, and it is zero exactly if
the product of their values is not above half of the least positive number.
-/

namespace Workforce

open Float.Model Float.Model.UnpackedFloat

namespace Single

variable {a b p : Float32}

/-! ### Values -/

/-- The absolute value of an entry, `⊤` for an infinite one. -/
def size (a : Float32) : WithTop ℚ := extent a.toModel.unpack

/-- The absolute value of a finite entry. -/
def value (a : Float32) : ℚ := (size a).untopD 0

lemma isFinite_iff : a.isFinite = true ↔
    (∃ s, a.toModel.unpack = .zero s) ∨
      ∃ s m e h, a.toModel.unpack = .finite s m e h ∧ CanonicalIn .binary32 m e ∧ e ≤ 104 := by
  change a.toModel.unpack.isFinite = true ↔ _
  cases hu : a.toModel.unpack with
  | notANumber => simp [UnpackedFloat.isFinite]
  | infinity s => simp [UnpackedFloat.isFinite]
  | zero s => simp [UnpackedFloat.isFinite]
  | finite s m e h =>
    refine iff_of_true rfl (.inr ⟨s, m, e, h, rfl, ?_⟩)
    exact canonicalIn_of_unpack (by decide) hu

lemma isProper_iff : isProper a = true ↔ a.toModel.unpack ≠ .notANumber := by
  change a.toModel.unpack.beq a.toModel.unpack = true ↔ _
  cases a.toModel.unpack with
  | notANumber => simp [UnpackedFloat.beq, UnpackedFloat.compare]
  | infinity s => cases s <;> exact iff_of_true rfl (by simp)
  | zero s => exact iff_of_true rfl (by simp)
  | finite s m e h => cases s <;> simp [UnpackedFloat.beq, UnpackedFloat.compare]

lemma isProper_of_isFinite (h : a.isFinite = true) : isProper a = true := by
  rw [isProper_iff]
  obtain ⟨s, hu⟩ | ⟨s, m, e, h, hu, -⟩ := isFinite_iff.mp h <;> simp [hu]

lemma unpack_zero : (0 : Float32).toModel.unpack = .zero .positive := rfl

lemma beq_zero_iff : (a == 0) = true ↔ ∃ s, a.toModel.unpack = .zero s := by
  change a.toModel.unpack.beq (0 : Float32).toModel.unpack = true ↔ _
  rw [unpack_zero]
  rcases a.toModel.unpack with (_ | _) | _ | _ | ⟨_ | _, _, _, _⟩ <;>
    simp [UnpackedFloat.beq, UnpackedFloat.compare]

lemma isFinite_of_beq_zero (h : (a == 0) = true) : a.isFinite = true :=
  isFinite_iff.mpr (.inl (beq_zero_iff.mp h))

lemma value_of_unpack_finite {s : Sign} {m : ℕ} {e : ℤ} {h : 0 < m}
    (hu : a.toModel.unpack = .finite s m e h) : value a = m * 2 ^ e := by
  rw [value, size, hu, extent_finite, WithTop.untopD_coe]

lemma value_of_unpack_zero {s : Sign} (hu : a.toModel.unpack = .zero s) : value a = 0 := by
  rw [value, size, hu, extent_zero]
  rfl

lemma size_eq_value (h : a.isFinite = true) : size a = value a := by
  obtain ⟨s, hu⟩ | ⟨s, m, e, hm, hu, -⟩ := isFinite_iff.mp h
  · rw [value_of_unpack_zero hu, size, hu, extent_zero, WithTop.coe_zero]
  · rw [value_of_unpack_finite hu, size, hu, extent_finite]

lemma value_nonneg (a : Float32) : 0 ≤ value a := by
  rw [value]
  cases h : size a with
  | top => exact le_rfl
  | coe q =>
    rw [WithTop.untopD_coe, ← WithTop.coe_nonneg, ← h]
    exact extent_nonneg _

lemma isFinite_iff_size : a.isFinite = true ↔ isProper a = true ∧ size a ≠ ⊤ := by
  rw [isProper_iff, size]
  change a.toModel.unpack.isFinite = true ↔ _
  cases a.toModel.unpack with
  | notANumber => simp [UnpackedFloat.isFinite]
  | infinity s => simp [UnpackedFloat.isFinite]
  | zero s => exact iff_of_true rfl ⟨by simp, WithTop.zero_ne_top⟩
  | finite s m e h => exact iff_of_true rfl ⟨by simp, WithTop.coe_ne_top⟩

lemma beq_zero_iff_size : (a == 0) = true ↔ isProper a = true ∧ size a = 0 := by
  rw [beq_zero_iff, isProper_iff, size]
  cases a.toModel.unpack with
  | notANumber => simp
  | infinity s => simp
  | zero s => simp
  | finite s m e h => simpa using (extent_finite_pos s h).ne'

lemma beq_zero_iff_value (h : a.isFinite = true) : (a == 0) = true ↔ value a = 0 := by
  rw [beq_zero_iff_size, size_eq_value h, WithTop.coe_eq_zero,
    and_iff_right (isProper_of_isFinite h)]

/-! ### Order -/

lemma lt_iff : a < b ↔ a.toModel.unpack.lt b.toModel.unpack = true := by
  change decide (a.toModel < b.toModel) = true ↔ _
  rw [decide_eq_true_iff]
  rfl

lemma le_iff : a ≤ b ↔ a.toModel.unpack.le b.toModel.unpack = true := by
  change decide (a.toModel ≤ b.toModel) = true ↔ _
  rw [decide_eq_true_iff]
  rfl

instance instIsStrictOrderFloat32 : IsStrictOrder Float32 (· < ·) where
  irrefl _ h := unpackedLt_irrefl _ (lt_iff.mp h)
  trans _ _ _ hab hbc := lt_iff.mpr (unpackedLt_trans (lt_iff.mp hab) (lt_iff.mp hbc))

/-- Undefined entries do not compare. -/
lemma isProper_of_le (h : a ≤ b) : isProper a = true ∧ isProper b = true := by
  rw [le_iff] at h
  rw [isProper_iff, isProper_iff]
  constructor <;> intro hu <;> rw [hu] at h
  · cases h
  · rcases hu' : a.toModel.unpack with (_ | _) | _ | _ | ⟨_ | _, m, e, hm⟩ <;> rw [hu'] at h <;>
      cases h

/-- An entry that is not positive is at most zero, unless it is undefined. -/
lemma pos_iff_not_le_zero : 0 < a ↔ isProper a = true ∧ ¬ a ≤ 0 := by
  rw [isProper_iff, lt_iff, le_iff, unpack_zero]
  rcases a.toModel.unpack with (_ | _) | _ | _ | ⟨_ | _, m, e, hm⟩ <;>
    simp [UnpackedFloat.lt, UnpackedFloat.le, UnpackedFloat.compare]

/-- How an entry is read once its sign is dropped. The sign of a zero stays. -/
lemma unpack_magnitude (a : Float32) : (magnitude a).toModel.unpack =
    match a.toModel.unpack with
    | .finite _ m e h => .finite .positive m e h
    | .infinity _ => .infinity .positive
    | other => other := by
  have hlt : a < 0 ↔ a.toModel.unpack.lt (.zero .positive) = true := lt_iff
  have hneg : (-a).toModel = Float32.Model.pack a.toModel.unpack.neg := rfl
  rw [magnitude]
  -- only numbers below zero are negated: a zero with a minus sign is none of them
  cases hu : a.toModel.unpack with
  | notANumber =>
    rw [if_neg (by rw [hlt, hu]; exact Bool.false_ne_true), hu]
  | zero s =>
    rw [if_neg (by rw [hlt, hu]; exact Bool.false_ne_true), hu]
  | infinity s =>
    cases s with
    | positive => rw [if_neg (by rw [hlt, hu]; exact Bool.false_ne_true), hu]
    | negative =>
      rw [if_pos (by rw [hlt, hu]; rfl), hneg, hu]
      rfl
  | finite s m e h =>
    cases s with
    | positive => rw [if_neg (by rw [hlt, hu]; exact Bool.false_ne_true), hu]
    | negative =>
      obtain ⟨hcanonical, he⟩ := canonicalIn_of_unpack (by decide) hu
      rw [if_pos (by rw [hlt, hu]; rfl), hneg, hu]
      exact unpack_packed_finite hcanonical he

lemma isProper_magnitude (a : Float32) : isProper (magnitude a) = isProper a := by
  rw [Bool.eq_iff_iff, isProper_iff, isProper_iff, unpack_magnitude]
  cases a.toModel.unpack <;> simp

lemma size_magnitude (a : Float32) : size (magnitude a) = size a := by
  rw [size, size, unpack_magnitude]
  cases a.toModel.unpack <;> rfl

lemma magnitudeIn_magnitude (h : isProper a = true) :
    MagnitudeIn .binary32 (magnitude a).toModel.unpack := by
  rw [isProper_iff] at h
  rw [unpack_magnitude]
  cases hu : a.toModel.unpack with
  | notANumber => exact absurd hu h
  | zero s => exact .zero s
  | infinity s => exact .infinity
  | finite s m e hm => exact .finite (canonicalIn_of_unpack (by decide) hu).1

lemma isFinite_magnitude (a : Float32) : (magnitude a).isFinite = a.isFinite := by
  rw [Bool.eq_iff_iff, isFinite_iff_size, isFinite_iff_size, isProper_magnitude, size_magnitude]

lemma magnitude_beq_zero (a : Float32) : (magnitude a == 0) = (a == 0) := by
  rw [Bool.eq_iff_iff, beq_zero_iff_size, beq_zero_iff_size, isProper_magnitude, size_magnitude]

/-! ### Peaks -/

section Peak

variable {as : List Float32}

/-- A peak of absolute values is zero or one of them. -/
lemma peak_magnitude_cases (as : List Float32) :
    peak (as.map magnitude) = 0 ∨ ∃ a ∈ as, peak (as.map magnitude) = magnitude a := by
  have hmem := peak_mem (as.map magnitude)
  rw [List.mem_cons, List.mem_map] at hmem
  exact hmem.imp_right fun ⟨a, ha, heq⟩ => ⟨a, ha, heq.symm⟩

lemma isProper_peak_magnitude_iff :
    isProper (peak (as.map magnitude)) = true ↔ ∀ a ∈ as, isProper a = true := by
  rw [isProper_peak_iff rfl, List.forall_mem_map]
  simp only [isProper_magnitude]

lemma size_le_size_peak (has : ∀ a ∈ as, isProper a = true) (ha : a ∈ as) :
    size a ≤ size (peak (as.map magnitude)) := by
  have hproper : ∀ b ∈ as.map magnitude, isProper b = true := by
    simpa only [List.forall_mem_map, isProper_magnitude] using has
  have hpeak : MagnitudeIn .binary32 (peak (as.map magnitude)).toModel.unpack := by
    obtain h | ⟨b, hb, h⟩ := peak_magnitude_cases as
    · rw [h]
      exact .zero .positive
    · rw [h]
      exact magnitudeIn_magnitude (has b hb)
  have hlt := not_peak_lt rfl hproper (List.mem_map_of_mem ha)
  rw [lt_iff, hpeak.lt_iff (magnitudeIn_magnitude (has a ha)), not_lt] at hlt
  rw [← size_magnitude a]
  exact hlt

/-- A peak is zero when all entries are. -/
lemma peak_magnitude_beq_zero_iff :
    (peak (as.map magnitude) == 0) = true ↔ ∀ a ∈ as, (a == 0) = true := by
  constructor
  · intro hzero a ha
    obtain ⟨hproper, hsize⟩ := beq_zero_iff_size.mp hzero
    have hall := isProper_peak_magnitude_iff.mp hproper
    have hle := size_le_size_peak hall ha
    rw [hsize] at hle
    exact beq_zero_iff_size.mpr ⟨hall a ha, le_antisymm hle (extent_nonneg _)⟩
  · intro hzero
    obtain h | ⟨a, ha, h⟩ := peak_magnitude_cases as
    · rw [h]
      rfl
    · rw [h, magnitude_beq_zero]
      exact hzero a ha

lemma isFinite_peak_magnitude_iff :
    (peak (as.map magnitude)).isFinite = true ↔ ∀ a ∈ as, a.isFinite = true := by
  constructor
  · intro hfinite a ha
    obtain ⟨hproper, hsize⟩ := isFinite_iff_size.mp hfinite
    have hall := isProper_peak_magnitude_iff.mp hproper
    exact isFinite_iff_size.mpr
      ⟨hall a ha, ((size_le_size_peak hall ha).trans_lt hsize.lt_top).ne⟩
  · intro hfinite
    obtain h | ⟨a, ha, h⟩ := peak_magnitude_cases as
    · rw [h]
      rfl
    · rw [h, isFinite_magnitude]
      exact hfinite a ha

lemma value_le_value_peak (has : ∀ a ∈ as, a.isFinite = true) (ha : a ∈ as) :
    value a ≤ value (peak (as.map magnitude)) := by
  rw [← WithTop.coe_le_coe, ← size_eq_value (has a ha),
    ← size_eq_value (isFinite_peak_magnitude_iff.mpr has)]
  exact size_le_size_peak (fun b hb => isProper_of_isFinite (has b hb)) ha

/-- A peak that is not zero is reached. -/
lemma exists_value_eq_value_peak (h : (peak (as.map magnitude) == 0) = false) :
    ∃ a ∈ as, value a = value (peak (as.map magnitude)) := by
  obtain hzero | ⟨a, ha, heq⟩ := peak_magnitude_cases as
  · rw [hzero] at h
    cases h
  · exact ⟨a, ha, by rw [heq, value, value, size_magnitude]⟩

end Peak

/-! ### Products -/

lemma unpack_mul (a b : Float32) : (a * b).toModel.unpack =
    UnpackedFloat.unpack .binary32 (UnpackedFloat.pack .binary32
      (UnpackedFloat.mul .binary32 a.toModel.unpack b.toModel.unpack)) := rfl

/-- A product of finite entries is a rounded number, which is zero only if the exact product is at
most half of the least positive number, or it is infinite because the exact product is too large. -/
lemma unpack_mul_cases (ha : a.isFinite = true) (hb : b.isFinite = true) :
    ((a * b).toModel.unpack.isFinite = true ∧
      (size (a * b) = 0 ↔ value a * value b ≤ 2 ^ (-150 : ℤ))) ∨
    ∃ s, (a * b).toModel.unpack = .infinity s ∧ 2 ^ (127 : ℤ) < value a * value b := by
  have hsmall : (0 : ℚ) ≤ 2 ^ (-150 : ℤ) := by positivity
  rw [size]
  obtain ⟨s, hu⟩ | ⟨s, m, e, h, hu, hcanonical, -⟩ := isFinite_iff.mp ha
  · left
    rw [value_of_unpack_zero hu, zero_mul, unpack_mul, hu]
    obtain ⟨s', hu'⟩ | ⟨s', m', e', h', hu', -⟩ := isFinite_iff.mp hb <;>
      rw [hu', UnpackedFloat.mul, unpack_packed_zero] <;>
      exact ⟨rfl, iff_of_true rfl hsmall⟩
  · obtain ⟨s', hu'⟩ | ⟨s', m', e', h', hu', hcanonical', -⟩ := isFinite_iff.mp hb
    · left
      rw [value_of_unpack_zero hu', mul_zero, unpack_mul, hu, hu', UnpackedFloat.mul,
        unpack_packed_zero]
      exact ⟨rfl, iff_of_true rfl hsmall⟩
    -- the exact product has no fewer bits than are kept of it, which rounding takes for granted
    · have hpos := Nat.mul_pos h h'
      have hbits := hcanonical.le_lastExponentIn_mul hcanonical'
      rw [value_of_unpack_finite hu, value_of_unpack_finite hu', ← mul_zpow_add, unpack_mul, hu,
        hu']
      dsimp only [UnpackedFloat.mul]
      obtain hstored | ⟨hstored, hlarge⟩ :=
        unpack_packed_round (s * s') (by decide) hpos hbits
      · left
        rw [hstored]
        refine ⟨?_, extent_roundWithAccuracy_eq_zero_iff (s * s') hpos hbits⟩
        obtain ⟨n, -, ⟨-, hround⟩ | ⟨m'', e'', h'', hround, -⟩⟩ :=
          roundWithAccuracy_eq (s * s') hpos hbits <;>
          rw [hround] <;> rfl
      · exact .inr ⟨s * s', hstored, hlarge⟩

lemma isProper_mul (ha : a.isFinite = true) (hb : b.isFinite = true) : isProper (a * b) = true := by
  obtain ⟨hfinite, -⟩ | ⟨s, hinfinite, -⟩ := unpack_mul_cases ha hb
  · exact isProper_of_isFinite hfinite
  · simp [isProper_iff, hinfinite]

/-- A product underflows exactly if it is at most half of the least positive number. -/
lemma mul_beq_zero_iff (ha : a.isFinite = true) (hb : b.isFinite = true) :
    (a * b == 0) = true ↔ value a * value b ≤ 2 ^ (-150 : ℤ) := by
  rw [beq_zero_iff_size, and_iff_right (isProper_mul ha hb)]
  obtain ⟨-, hzero⟩ | ⟨s, hinfinite, hlarge⟩ := unpack_mul_cases ha hb
  · exact hzero
  · refine iff_of_false ?_ (lt_trans ?_ hlarge).not_ge
    · rw [size, hinfinite, extent_infinity]
      exact WithTop.top_ne_zero
    · exact zpow_lt_zpow_right₀ one_lt_two (by decide)

/-- A product does not overflow unless it is too large. -/
lemma isFinite_mul (ha : a.isFinite = true) (hb : b.isFinite = true)
    (hle : value a * value b ≤ 2 ^ (127 : ℤ)) : (a * b).isFinite = true := by
  obtain ⟨hfinite, -⟩ | ⟨s, -, hlarge⟩ := unpack_mul_cases ha hb
  · exact hfinite
  · exact absurd hle hlarge.not_ge

end Single

end Workforce
