import Workforce.Proofs.Descent.Termination
import Workforce.Proofs.Settings.Bounds
import Workforce.Request.Descent

/-!
# Settings that a descent accepts

The bounds of the settings compare binary64 numbers with integers from one side, and a descent
compares its parameters with them from the other. Infinities, both zeros and the undefined number
included, the two agree on everything but an undefined damping, which only the bounds refuse. So an
environment in which settings load has a descent, and the descent has the parameters that it should.
-/

namespace Workforce

open Float.Model Float.Model.UnpackedFloat

/-! ### Real numbers beside integers -/

section Compare

variable {x y : Float} {n : ℕ}

lemma compare_swap (a b : UnpackedFloat) : b.compare a = (a.compare b).map Ordering.swap := by
  rcases a with (_ | _) | _ | _ | ⟨_ | _, m, e, _⟩ <;>
    rcases b with (_ | _) | _ | _ | ⟨_ | _, m', e', _⟩ <;>
      first
      | rfl
      | simp [UnpackedFloat.compare, Ordering.swap_then, ← Std.OrientedCmp.eq_swap]

/-- A number that is not negative is above all that are. -/
lemma compare_eq_gt {a b : UnpackedFloat} (ha : MagnitudeIn .binary64 a)
    (hb : b = .infinity .negative ∨ ∃ m e h, b = .finite .negative m e h) :
    a.compare b = some .gt := by
  obtain rfl | ⟨m, e, h, rfl⟩ := hb <;> cases ha <;> rfl

/-- A number is compared with an integer as it is with the binary64 number of the same value. -/
lemma compareInt_eq_compare (hy : MagnitudeIn .binary64 y.toModel.unpack) (hn : size y = n) :
    (Parts.of x).compareInt n = y.toModel.unpack.compare x.toModel.unpack := by
  rw [size] at hn
  cases hx : x.toModel.unpack with
  | notANumber =>
    rw [partsOf_eq, hx]
    cases y.toModel.unpack <;> rfl
  | zero s =>
    rw [compareInt_of_unpack_zero hx, hy.compare_eq (.zero s), hn]
    have hzero : extent (.zero s) = ((0 : ℚ) : WithTop ℚ) := rfl
    have hcast : (n : WithTop ℚ) = ((n : ℚ) : WithTop ℚ) := rfl
    rw [hzero, hcast]
    refine congrArg some (compare_eq_compare ?_ ?_) <;> rw [WithTop.coe_lt_coe] <;> norm_cast
  | infinity s =>
    rw [partsOf_eq, hx]
    cases s with
    | negative => exact (compare_eq_gt hy (.inl rfl)).symm
    | positive =>
      rw [hy.compare_eq .infinity, hn]
      exact congrArg some (compare_lt_iff_lt.mpr (WithTop.coe_lt_top _)).symm
  | finite s m e h =>
    rw [partsOf_eq, hx]
    cases s with
    | negative =>
      rw [compare_eq_gt hy (.inr ⟨m, e, h, rfl⟩)]
      refine congrArg some (compare_gt_iff_gt.mpr ?_)
      -- the sign decides: the integer has the value of a number that is not negative
      have hpos : 0 < (m : ℤ) * (Decimal.powFraction 2 e).1 :=
        mul_pos (by exact_mod_cast h) (by exact_mod_cast powFraction_pos e)
      have hle : 0 ≤ (n : ℤ) * (Decimal.powFraction 2 e).2 := by positivity
      calc -(m : ℤ) * (Decimal.powFraction 2 e).1
        _ = -(m * (Decimal.powFraction 2 e).1) := neg_mul _ _
        _ < 0 := neg_neg_of_pos hpos
        _ ≤ n * (Decimal.powFraction 2 e).2 := hle
    | positive =>
      have hx' : MagnitudeIn .binary64 (.finite .positive m e h) :=
        .finite (canonical_of_unpack hx).1.canonicalIn
      rw [hy.compare_eq hx', hn, extent_finite]
      exact compareInt_finite m e n

namespace Quantity

section

variable (hy : MagnitudeIn .binary64 y.toModel.unpack) (hn : size y = n)
include hy hn

lemma whole_lt_real_iff : whole n < real x ↔ y < x := by
  change (Parts.of x).compareInt n = some .lt ↔ _
  rw [compareInt_eq_compare hy hn, float_lt_iff, UnpackedFloat.lt, beq_iff_eq]

lemma whole_le_real_iff : whole n ≤ real x ↔ y ≤ x := by
  change (Parts.of x).compareInt n = some .lt ∨ (Parts.of x).compareInt n = some .eq ↔ _
  rw [compareInt_eq_compare hy hn, float_le_iff, UnpackedFloat.le]
  rcases y.toModel.unpack.compare x.toModel.unpack with _ | _ | _ | _ <;> simp

lemma real_lt_whole_iff : real x < whole n ↔ x < y := by
  change ((Parts.of x).compareInt n).map Ordering.swap = some .lt ↔ _
  rw [compareInt_eq_compare hy hn, ← compare_swap, float_lt_iff, UnpackedFloat.lt, beq_iff_eq]

end

/-! Zero and one are binary64 numbers. -/

lemma zero_lt_real_iff : (0 : Quantity) < real x ↔ 0 < x :=
  whole_lt_real_iff (n := 0) (.zero .positive) (by rw [size, unpack_zero, Nat.cast_zero]; rfl)

lemma zero_le_real_iff : (0 : Quantity) ≤ real x ↔ 0 ≤ x :=
  whole_le_real_iff (n := 0) (.zero .positive) (by rw [size, unpack_zero, Nat.cast_zero]; rfl)

lemma unpack_one : (1 : Float).toModel.unpack =
    .finite .positive (2 ^ 52) (-52) (Nat.two_pow_pos 52) := rfl

lemma real_lt_one_iff : real x < (1 : Quantity) ↔ x < 1 := by
  have hone : Canonical (2 ^ 52) (-52) := canonical_two_pow (by norm_num)
  refine real_lt_whole_iff (n := 1) (notNegative_of_unpack_eq hone unpack_one).magnitudeIn ?_
  rw [size_of_unpack_eq hone unpack_one, two_pow_mul_zpow]
  rfl

end Quantity

end Compare

/-! ### Line searches with binary64 parameters -/

section Accept

variable {damping start shrink floor x y : Float}

lemma float_not_le_of_lt (h : x < y) : ¬ y ≤ x := by
  rw [float_lt_iff, UnpackedFloat.lt, beq_iff_eq] at h
  rw [float_le_iff, UnpackedFloat.le, compare_swap, h]
  decide

/-- Positive numbers compare with each other. -/
lemma float_lt_of_not_le (hx : 0 < x) (hy : 0 < y) (h : ¬ y ≤ x) : x < y := by
  obtain ⟨hx', -⟩ := Quantity.pos_of_lt_real (Quantity.zero_lt_real_iff.mpr hx)
  obtain ⟨hy', -⟩ := Quantity.pos_of_lt_real (Quantity.zero_lt_real_iff.mpr hy)
  rw [hy'.le_iff hx', not_le] at h
  exact (hx'.lt_iff hy').mpr h

/-- Of the numbers that are not below zero, only the undefined one is not at or above it. -/
lemma float_zero_le_iff : 0 ≤ x ↔ ¬ x < 0 ∧ (x == x) = true := by
  have hsign : compare Sign.positive Sign.positive = .eq := rfl
  rw [float_le_iff, float_lt_iff, float_beq_iff, Quantity.unpack_zero]
  rcases x.toModel.unpack with (_ | _) | _ | _ | ⟨_ | _, m, e, h⟩ <;>
    simp [UnpackedFloat.le, UnpackedFloat.lt, UnpackedFloat.beq, UnpackedFloat.compare, hsign]

/-- Numbers that a line search can have. An undefined number compares with none, so that none of
them is undefined. -/
structure SearchesLines (damping start shrink floor : Float) : Prop where
  zero_le_damping : 0 ≤ damping
  zero_lt_shrink : 0 < shrink
  shrink_lt_one : shrink < 1
  zero_lt_floor : 0 < floor
  floor_lt_start : floor < start

/-- Numbers that pass the bounds of their settings, and the check of the floor. -/
structure PassesBounds (damping start shrink floor : Float) : Prop where
  damping_holds : ∀ b ∈ [Bound.atLeast 0], b.holds (.real damping) = true
  start_holds : ∀ b ∈ [Bound.above 0], b.holds (.real start) = true
  shrink_holds : ∀ b ∈ [Bound.below 1, .above 0], b.holds (.real shrink) = true
  floor_holds : ∀ b ∈ [Bound.above 0], b.holds (.real floor) = true
  not_start_le_floor : ¬ start ≤ floor

lemma passesBounds_iff :
    PassesBounds damping start shrink floor ↔ SearchesLines damping start shrink floor := by
  have hatLeast (x : Float) : (Bound.atLeast 0).holds (.real x) = true ↔ 0 ≤ x :=
    decide_eq_true_iff.trans Quantity.zero_le_real_iff
  have habove (x : Float) : (Bound.above 0).holds (.real x) = true ↔ 0 < x :=
    decide_eq_true_iff.trans Quantity.zero_lt_real_iff
  have hbelow (x : Float) : (Bound.below 1).holds (.real x) = true ↔ x < 1 :=
    decide_eq_true_iff.trans Quantity.real_lt_one_iff
  constructor
  · intro h
    have hstart : 0 < start := (habove _).mp (h.start_holds _ (List.mem_singleton_self _))
    have hfloor : 0 < floor := (habove _).mp (h.floor_holds _ (List.mem_singleton_self _))
    exact
      { zero_le_damping := (hatLeast _).mp (h.damping_holds _ (List.mem_singleton_self _))
        zero_lt_shrink := (habove _).mp (h.shrink_holds _ (by decide))
        shrink_lt_one := (hbelow _).mp (h.shrink_holds _ (by decide))
        zero_lt_floor := hfloor
        floor_lt_start := float_lt_of_not_le hfloor hstart h.not_start_le_floor }
  · intro h
    -- a line search does not ask for a positive first scale, which is above a positive floor
    have hstart : 0 < start := float_lt_trans h.zero_lt_floor h.floor_lt_start
    exact
      { damping_holds := by simpa [hatLeast] using h.zero_le_damping
        start_holds := by simpa [habove] using hstart
        shrink_holds := by simpa [habove, hbelow] using ⟨h.shrink_lt_one, h.zero_lt_shrink⟩
        floor_holds := by simpa [habove] using h.zero_lt_floor
        not_start_le_floor := float_not_le_of_lt h.floor_lt_start }

lemma exists_descent_of_searchesLines (h : SearchesLines damping start shrink floor) :
    ∃ d, Parameters.descent ⟨.real damping, .real start, .real shrink, .real floor⟩ = .ok d := by
  have hdamping : ¬ (.real damping : Quantity) < 0 :=
    mt (Quantity.real_lt_zero damping).mp (float_zero_le_iff.mp h.zero_le_damping).1
  have hshrink := Quantity.zero_lt_real_iff.mpr h.zero_lt_shrink
  have hone := Quantity.real_lt_one_iff.mpr h.shrink_lt_one
  have hfloor := Quantity.zero_lt_real_iff.mpr h.zero_lt_floor
  have hstart := (Quantity.lt_real floor start).mpr h.floor_lt_start
  exact ⟨_, by simp [Parameters.descent, checkDamping, Literal.quantityBelow,
    Literal.quantityAbove, hdamping, hshrink, hone, hfloor, hstart]; rfl⟩

/-- What a descent accepts are the numbers of a line search, and an undefined damping with them. -/
lemma exists_descent_iff :
    (∃ d, Parameters.descent ⟨.real damping, .real start, .real shrink, .real floor⟩ = .ok d) ∧
        (damping == damping) = true ↔
      SearchesLines damping start shrink floor := by
  constructor
  · rintro ⟨⟨d, hd⟩, hproper⟩
    obtain ⟨hdamping, hstart, hshrink, hfloor⟩ := Descent.eq_of_descent_real hd
    have hnot : ¬ damping < 0 := fun h =>
      d.not_damping_neg (hdamping ▸ (Quantity.real_lt_zero damping).mpr h)
    exact
      { zero_le_damping := float_zero_le_iff.mpr ⟨hnot, hproper⟩
        zero_lt_shrink := Quantity.zero_lt_real_iff.mp (hshrink ▸ d.shrink_pos)
        shrink_lt_one := Quantity.real_lt_one_iff.mp (hshrink ▸ d.shrink_lt_one)
        zero_lt_floor := Quantity.zero_lt_real_iff.mp (hfloor ▸ d.floor_pos)
        floor_lt_start := (Quantity.lt_real _ _).mp (hfloor ▸ hstart ▸ d.floor_lt_start) }
  · intro h
    exact ⟨exists_descent_of_searchesLines h, (float_zero_le_iff.mp h.zero_le_damping).2⟩

end Accept

/-! ### The descent of an environment -/

namespace Request

/-- The descent without given parameters. Where settings do not load it fails with their errors.
Where they load it is made, with the numbers of the settings, which are those of a line search. For
all binary64 numbers, the bounds of the settings accept what a descent accepts, except that a
descent accepts an undefined damping too. -/
theorem descent_of_environment (env : Environment) :
    (∀ errors, Settings.load [] env = .error errors →
      descent env {} = .error (.settings errors)) ∧
    (∀ E, Settings.load [] env = .ok E → ∃ d, descent env {} = .ok d ∧
      d.damping = .real E.damping ∧ d.start = .real E.start ∧ d.shrink = .real E.shrink ∧
      d.floor = .real E.floor ∧
      0 ≤ E.damping ∧ 0 < E.shrink ∧ E.shrink < 1 ∧ 0 < E.floor ∧ E.floor < E.start) ∧
    ∀ damping start shrink floor : Float, PassesBounds damping start shrink floor ↔
      (∃ d, Parameters.descent ⟨.real damping, .real start, .real shrink, .real floor⟩ = .ok d) ∧
        (damping == damping) = true := by
  refine ⟨fun errors h => ?_, fun E h => ?_, fun damping start shrink floor => ?_⟩
  · rw [descent, ambient, h]
    rfl
  · obtain ⟨hbounds, hfloor⟩ := Settings.withinBounds_of_load h
    -- settings that load are in bounds, and so is the floor below the first scale
    have hsearches : SearchesLines E.damping E.start E.shrink E.floor :=
      passesBounds_iff.mp ⟨hbounds.damping, hbounds.start, hbounds.shrink, hbounds.floor, hfloor⟩
    obtain ⟨d, hd⟩ := exists_descent_of_searchesLines hsearches
    obtain ⟨hdamping, hstart, hshrink, hfloor⟩ := Descent.eq_of_descent_real hd
    refine ⟨d, ?_, hdamping, hstart, hshrink, hfloor, hsearches.zero_le_damping,
      hsearches.zero_lt_shrink, hsearches.shrink_lt_one, hsearches.zero_lt_floor,
      hsearches.floor_lt_start⟩
    rw [descent, ambient, h]
    exact congrArg Answer.ofParameter hd
  · rw [passesBounds_iff, exists_descent_iff]

/-- An environment with settings at the edge of their bounds. -/
def extreme : Environment :=
  ⟨[("damping_beta", "-0.0"), ("LINE_SEARCH_SHRINK", "0.9999999999999999"),
    ("Line_Search_Initial_Alpha", " Infinity ")], "export LINE_SEARCH_ALPHA_FLOOR = 5e-324 # least"⟩

/-- A damping of minus zero, an infinite start and the least positive floor are accepted. -/
theorem descent_of_environment_extreme : ∃ E d, Settings.load [] extreme = .ok E ∧
    descent extreme {} = .ok d ∧ d.damping = .real (-0.0) ∧ d.start = .real (1 / 0) ∧
    d.floor = .real (.ofBits 1) := by
  obtain ⟨E, hE, hvalues⟩ : ∃ E, Settings.load [] extreme = .ok E ∧
      (E.damping, E.start, E.floor) = (-0.0, 1 / 0, .ofBits 1) :=
    map_eq_ok_iff.mp (by decide +kernel)
  obtain ⟨hdamping, hstart, hfloor⟩ : _ ∧ _ ∧ _ := by simpa using hvalues
  obtain ⟨-, hloaded, -⟩ := descent_of_environment extreme
  obtain ⟨d, hd, hd_damping, hd_start, -, hd_floor, -⟩ := hloaded E hE
  exact ⟨E, d, hE, hd, hd_damping.trans (congrArg _ hdamping), hd_start.trans (congrArg _ hstart),
    hd_floor.trans (congrArg _ hfloor)⟩

end Request

end Workforce
