import Workforce.Proofs.Number.Shrinking

/-!
# Real quantities

Quantities that are real numbers are compared and multiplied as binary64 numbers. With an integer
they are compared exactly, so that a comparison with zero or one says whether a number is positive
or a factor between zero and one. Both zeros equal the integer zero, and only they do.
-/

namespace Workforce

open Float.Model Float.Model.UnpackedFloat

variable {x y : Float}

lemma float_beq_iff : (x == y) = true ↔ x.toModel.unpack.beq y.toModel.unpack = true := Iff.rfl

namespace Quantity

@[simp] lemma real_mul_real (x y : Float) : real x * real y = real (x * y) := rfl

@[simp] lemma le_real (x y : Float) : real x ≤ real y ↔ x ≤ y := by
  change compare? (real x) (real y) = some .lt ∨ compare? (real x) (real y) = some .eq ↔ _
  rw [compare?, float_le_iff]
  simp only [float_lt_iff, float_beq_iff, UnpackedFloat.lt, UnpackedFloat.beq, UnpackedFloat.le]
  rcases x.toModel.unpack.compare y.toModel.unpack with _ | _ | _ | _
  · simp only [Option.any_none]
    split_ifs <;> simp_all
  · simp
  · simp
  · simp only [Option.any_some]
    split_ifs <;> simp_all

end Quantity

/-! ### Integers -/

@[simp] lemma Quantity.lt_whole (m n : ℤ) : Quantity.whole m < .whole n ↔ m < n := by
  change some (compare m n) = some .lt ↔ _
  rw [Option.some.injEq, compare_lt_iff_lt]

@[simp] lemma Quantity.le_whole (m n : ℤ) : Quantity.whole m ≤ .whole n ↔ m ≤ n := by
  change some (compare m n) = some .lt ∨ some (compare m n) = some .eq ↔ _
  rw [Option.some.injEq, Option.some.injEq, compare_lt_iff_lt, compare_eq_iff_eq, le_iff_lt_or_eq]

/-- A power of two as a fraction. -/
lemma mul_powFraction (m : ℕ) (e : ℤ) : 0 < (Decimal.powFraction 2 e).2 ∧
    (m * (Decimal.powFraction 2 e).1 : ℚ) = m * 2 ^ e * (Decimal.powFraction 2 e).2 := by
  rw [Decimal.powFraction]
  split_ifs with he
  · lift e to ℕ using he
    simp
  · obtain ⟨n, rfl⟩ : ∃ n : ℕ, e = -n := ⟨(-e).toNat, by omega⟩
    simp

lemma partsOf_eq (x : Float) : Parts.of x =
    match x.toModel.unpack with
    | .finite s m e _ => .finite (Parts.isMinus s) m e
    | .zero s => .finite (Parts.isMinus s) 0 0
    | .infinity s => .infinite (Parts.isMinus s)
    | .notANumber => .undefined := rfl

lemma compare_eq_compare {β γ : Type} [LinearOrder β] [LinearOrder γ] {a b : β} {c d : γ}
    (hlt : a < b ↔ c < d) (hgt : b < a ↔ d < c) : compare a b = compare c d := by
  rcases lt_trichotomy a b with h | h | h
  · rw [compare_lt_iff_lt.mpr h, compare_lt_iff_lt.mpr (hlt.mp h)]
  · have heq : c = d :=
      le_antisymm (not_lt.mp (mt hgt.mpr h.not_gt)) (not_lt.mp (mt hlt.mpr h.not_lt))
    rw [compare_eq_iff_eq.mpr h, compare_eq_iff_eq.mpr heq]
  · rw [compare_gt_iff_gt.mpr h, compare_gt_iff_gt.mpr (hgt.mp h)]

lemma compareInt_finite (m : ℕ) (e n : ℤ) : (Parts.finite false m e).compareInt n =
    some (compare ((n : ℚ) : WithTop ℚ) ((m * 2 ^ e : ℚ) : WithTop ℚ)) := by
  obtain ⟨hden, hnum⟩ := mul_powFraction m e
  have hden' : (0 : ℚ) < (Decimal.powFraction 2 e).2 := by exact_mod_cast hden
  refine congrArg some (compare_eq_compare ?_ ?_) <;>
    rw [WithTop.coe_lt_coe, ← mul_lt_mul_iff_left₀ hden', ← hnum] <;> norm_cast

/-- A number that is not negative is compared with an integer exactly. -/
lemma NotNegative.compareInt_eq (hx : NotNegative x) (n : ℤ) :
    (Parts.of x).compareInt n = some (compare ((n : ℚ) : WithTop ℚ) (size x)) := by
  rw [partsOf_eq, size]
  obtain hx | ⟨m, e, h, -, hx⟩ | hx := hx.unpack_eq
  · rw [hx]
    exact (compareInt_finite 0 0 n).trans (by simp)
  · rw [hx]
    exact compareInt_finite m e n
  · rw [hx, extent_infinity, compare_lt_iff_lt.mpr (WithTop.coe_lt_top _)]
    rfl

/-- Only positive numbers are above zero. -/
lemma notNegative_of_compareInt (h : (Parts.of x).compareInt 0 = some .lt) : NotNegative x := by
  rw [partsOf_eq] at h
  rw [NotNegative]
  cases hx : x.toModel.unpack with
  | finite s m e hm =>
    rw [hx] at h
    cases s with
    | negative =>
      have hlt := compare_lt_iff_lt.mp (Option.some.inj h)
      have hle : (-m * (Decimal.powFraction 2 e).1 : ℤ) ≤ 0 :=
        mul_nonpos_of_nonpos_of_nonneg (by omega) (Int.natCast_nonneg _)
      rw [zero_mul] at hlt
      exact absurd hlt hle.not_gt
    | positive => exact .finite (canonical_of_unpack hx).1
  | zero s =>
    rw [hx] at h
    cases s <;> simp [Parts.compareInt, Parts.isMinus] at h
  | infinity s =>
    rw [hx] at h
    cases s with
    | negative => simp [Parts.compareInt, Parts.isMinus] at h
    | positive => exact .infinity
  | notANumber =>
    rw [hx] at h
    simp [Parts.compareInt] at h

namespace Quantity

/-- A real quantity above zero is positive. -/
lemma pos_of_lt_real (h : 0 < real x) : NotNegative x ∧ 0 < size x := by
  have hcompare : (Parts.of x).compareInt 0 = some .lt := h
  have hx := notNegative_of_compareInt hcompare
  rw [hx.compareInt_eq, Option.some.injEq, compare_lt_iff_lt] at hcompare
  exact ⟨hx, by simpa using hcompare⟩

/-- A real quantity between zero and one is a factor. -/
lemma isShrinking_of_lt (hpos : 0 < real x) (hlt : real x < 1) : IsShrinking x := by
  obtain ⟨hx, hsize⟩ := pos_of_lt_real hpos
  have hcompare : ((Parts.of x).compareInt 1).map Ordering.swap = some .lt := hlt
  rw [hx.compareInt_eq, Option.map_some, Option.some.injEq, Ordering.swap_eq_lt,
    compare_gt_iff_gt] at hcompare
  obtain hx | ⟨m, e, h, -, hx⟩ | hx := hx.unpack_eq
  · rw [size, hx] at hsize
    exact absurd hsize (lt_irrefl 0)
  · refine ⟨m, e, h, hx, ?_⟩
    rw [size, hx, extent_finite] at hcompare
    simpa using WithTop.coe_lt_coe.mp hcompare
  · rw [size, hx, extent_infinity] at hcompare
    exact absurd hcompare not_top_lt

end Quantity

/-! ### Zeros -/

lemma powFraction_pos (e : ℤ) : 0 < (Decimal.powFraction 2 e).1 := by
  rw [Decimal.powFraction]
  split_ifs <;> simp

/-- Only the zeros compare equal to zero. -/
lemma unpack_of_compareInt_eq (h : (Parts.of x).compareInt 0 = some .eq) :
    ∃ s, x.toModel.unpack = .zero s := by
  rw [partsOf_eq] at h
  cases hx : x.toModel.unpack with
  | zero s => exact ⟨s, rfl⟩
  | infinity s => rw [hx] at h; cases s <;> cases h
  | notANumber => rw [hx] at h; cases h
  | finite s m e hm =>
    rw [hx] at h
    have hzero := compare_eq_iff_eq.mp (Option.some.inj h)
    have hprod : 0 < (m : ℤ) * (Decimal.powFraction 2 e).1 :=
      mul_pos (by exact_mod_cast hm) (by exact_mod_cast powFraction_pos e)
    rw [zero_mul] at hzero
    cases s with
    | negative => exact absurd (hzero.trans (neg_mul _ _)) (neg_ne_zero.mpr hprod.ne').symm
    | positive => exact absurd hzero hprod.ne

/-- What is below a zero is negative. -/
lemma compareInt_of_lt_zero {s : UnpackedFloat.Sign} (h : x < y) (hy : y.toModel.unpack = .zero s) :
    (Parts.of x).compareInt 0 = some .gt := by
  rw [float_lt_iff, hy] at h
  rw [partsOf_eq]
  rcases hx : x.toModel.unpack with (_ | _) | _ | _ | ⟨_ | _, m, e, hm⟩ <;> rw [hx] at h <;>
    first | rfl | cases h; done | skip
  have hprod : 0 < (m : ℤ) * (Decimal.powFraction 2 e).1 :=
    mul_pos (by exact_mod_cast hm) (by exact_mod_cast powFraction_pos e)
  refine congrArg some (compare_gt_iff_gt.mpr ?_)
  rw [zero_mul]
  exact (neg_mul _ _).trans_lt (neg_neg_of_pos hprod)

/-- What compares as negative is below every zero. -/
lemma lt_zero_of_compareInt {s : UnpackedFloat.Sign} (h : (Parts.of x).compareInt 0 = some .gt)
    (hy : y.toModel.unpack = .zero s) : x < y := by
  rw [float_lt_iff, hy]
  rw [partsOf_eq] at h
  cases hx : x.toModel.unpack with
  | notANumber => rw [hx] at h; cases h
  | infinity s => rw [hx] at h; cases s <;> first | rfl | cases h
  | zero s => rw [hx] at h; cases s <;> cases h
  | finite s m e hm =>
    rw [hx] at h
    cases s with
    | negative => rfl
    | positive =>
      have hnegative := compare_gt_iff_gt.mp (Option.some.inj h)
      have hprod : 0 ≤ (m : ℤ) * (Decimal.powFraction 2 e).1 := by positivity
      rw [zero_mul] at hnegative
      exact absurd hnegative hprod.not_gt

/-- A zero is compared with an integer as the integer zero is. -/
lemma compareInt_of_unpack_zero {s : UnpackedFloat.Sign} (hy : y.toModel.unpack = .zero s) (n : ℤ) :
    (Parts.of y).compareInt n = some (compare n 0) := by
  rw [partsOf_eq, hy]
  cases s <;> simp [Parts.compareInt, Parts.isMinus, Decimal.powFraction]

namespace Quantity

variable {a b : Quantity} {n : ℤ}

lemma compare?_of_toInt? (h : b.toInt? = some n) : compare? a b = compare? a (whole n) := by
  cases b with
  | flag b => cases h; cases a <;> rfl
  | whole m => cases h; rfl
  | real y => cases h

/-- A real number that equals zero is compared as zero is. -/
lemma compare?_of_unpack_zero {s : UnpackedFloat.Sign} (hy : y.toModel.unpack = .zero s)
    (h : compare? a (real y) = some .lt) : compare? a (whole 0) = some .lt := by
  cases a with
  | flag b => exact (compareInt_of_unpack_zero hy b.toInt).symm.trans h
  | whole m => exact (compareInt_of_unpack_zero hy m).symm.trans h
  | real x =>
    have hgt := compareInt_of_lt_zero ((lt_real x y).mp h) hy
    exact congrArg (Option.map Ordering.swap) hgt

/-- Only the zeros equal zero. -/
lemma real_beq_zero_iff : (real x == 0) = true ↔ ∃ s, x.toModel.unpack = .zero s := by
  constructor
  · intro h
    have hzero : ((Parts.of x).compareInt 0).map Ordering.swap = some .eq := beq_iff_eq.mp h
    obtain ⟨o, ho, hswap⟩ := Option.map_eq_some_iff.mp hzero
    rw [Ordering.swap_eq_eq.mp hswap] at ho
    exact unpack_of_compareInt_eq ho
  · rintro ⟨s, hx⟩
    have hzero : compare? (real x) (whole 0) = some .eq :=
      congrArg (Option.map Ordering.swap) (compareInt_of_unpack_zero hx 0)
    show (compare? (real x) (whole 0) == some .eq) = true
    rw [hzero]
    rfl

/-- What is below a number that equals zero is negative. -/
lemma neg_of_lt_of_beq_zero (h : a < b) (hb : (b == 0) = true) : a < 0 := by
  have hlt : compare? a b = some .lt := h
  have hzero : compare? b (whole 0) = some .eq := beq_iff_eq.mp hb
  cases b with
  | flag b =>
    have hn : b.toInt = 0 := compare_eq_iff_eq.mp (Option.some.inj hzero)
    rwa [compare?_of_toInt? rfl, hn] at hlt
  | whole n =>
    have hn : n = 0 := compare_eq_iff_eq.mp (Option.some.inj hzero)
    rwa [hn] at hlt
  | real y =>
    obtain ⟨s, hy⟩ := real_beq_zero_iff.mp hb
    exact compare?_of_unpack_zero hy hlt

lemma unpack_zero : (0 : Float).toModel.unpack = .zero .positive := rfl

lemma real_lt_zero (x : Float) : real x < 0 ↔ x < 0 := by
  constructor
  · intro h
    obtain ⟨o, ho, hswap⟩ := Option.map_eq_some_iff.mp
      (show ((Parts.of x).compareInt 0).map Ordering.swap = some .lt from h)
    rw [Ordering.swap_eq_lt.mp hswap] at ho
    exact lt_zero_of_compareInt ho unpack_zero
  · intro h
    exact congrArg (Option.map Ordering.swap) (compareInt_of_lt_zero h unpack_zero)

lemma le_zero_of_real_beq_zero (h : (real x == 0) = true) : x ≤ 0 := by
  obtain ⟨s, hx⟩ := real_beq_zero_iff.mp h
  rw [float_le_iff, hx, unpack_zero]
  cases s <;> rfl

end Quantity

end Workforce
