import Workforce.Number.Single
import Workforce.Proofs.Number.Packing

/-!
# Infinite and undefined numbers

A sum, a difference or a product with an operand that is infinite or undefined is infinite or
undefined itself, and so is a product that is added in one operation. A sum of squares is never
negative, so an infinite or undefined one is not below any number.
-/

namespace Workforce

open Float.Model Float.Model.UnpackedFloat

variable {spec : Format} {u v : UnpackedFloat}

/-! ### Storing -/

lemma isFinite_unpack_iff {b : BitVec spec.numBits} :
    (UnpackedFloat.unpack spec b).isFinite = true ↔
      unpackExponent b ≠ -BitVec.ofNat spec.exponentBits 1 := by
  simp only [UnpackedFloat.unpack]
  split_ifs <;> simp_all [UnpackedFloat.isFinite]

/-- Storing does not make a number finite. -/
lemma isFinite_of_stored
    (h : (UnpackedFloat.unpack spec (UnpackedFloat.pack spec u)).isFinite = true) :
    u.isFinite = true := by
  cases u with
  | notANumber => exact absurd unpackExponent_packComponents (isFinite_unpack_iff.mp h)
  | infinity s => exact absurd unpackExponent_packComponents (isFinite_unpack_iff.mp h)
  | zero s => rfl
  | finite s m e hm => rfl

/-! ### Operations -/

lemma isFinite_of_add (h : (UnpackedFloat.add spec u v).isFinite = true) :
    u.isFinite = true ∧ v.isFinite = true := by
  -- equal signs decide whether a sum of infinite numbers is infinite or undefined
  rcases u with (_ | _) | _ | _ | _ <;> rcases v with (_ | _) | _ | _ | _ <;>
    first | exact ⟨rfl, rfl⟩ | cases h

lemma isFinite_of_sub (h : (UnpackedFloat.sub spec u v).isFinite = true) :
    u.isFinite = true ∧ v.isFinite = true := by
  rcases u with (_ | _) | _ | _ | _ <;> rcases v with (_ | _) | _ | _ | _ <;>
    first | exact ⟨rfl, rfl⟩ | cases h

lemma isFinite_of_mul (h : (UnpackedFloat.mul spec u v).isFinite = true) :
    u.isFinite = true ∧ v.isFinite = true := by
  cases u <;> cases v <;> first | exact ⟨rfl, rfl⟩ | cases h

/-! ### Numbers without a minus -/

/-- A number that has no minus sign: positive, the positive zero, or undefined. -/
def HasNoMinus : UnpackedFloat → Prop
  | .notANumber => True
  | .infinity s => s = .positive
  | .zero s => s = .positive
  | .finite s _ _ _ => s = .positive

lemma unpackSign_pack (h : HasNoMinus u) : unpackSign (UnpackedFloat.pack spec u) = 0#1 := by
  cases u with
  | notANumber => exact unpackSign_packComponents ..
  | infinity s =>
    obtain rfl : s = .positive := h
    exact unpackSign_packComponents ..
  | zero s =>
    obtain rfl : s = .positive := h
    exact unpackSign_packComponents ..
  | finite s m e hm =>
    obtain rfl : s = .positive := h
    simp only [UnpackedFloat.pack]
    split_ifs <;> exact unpackSign_packComponents ..

namespace HasNoMinus

/-- Storing gives no number a minus sign. -/
lemma stored (h : HasNoMinus u) :
    HasNoMinus (UnpackedFloat.unpack spec (UnpackedFloat.pack spec u)) := by
  simp only [UnpackedFloat.unpack, unpackSign_pack h]
  split_ifs <;> trivial

lemma roundWithAccuracy (m : ℕ) (e : ℤ) (a : Accuracy) :
    HasNoMinus (UnpackedFloat.roundWithAccuracy spec .positive m e a) := by
  simp only [UnpackedFloat.roundWithAccuracy]
  split_ifs <;> rfl

lemma normalize {m : ℤ} (hm : 0 ≤ m) (e : ℤ) :
    HasNoMinus (UnpackedFloat.normalize spec m e .positive) := by
  rw [UnpackedFloat.normalize]
  cases h : compare m 0 with
  | lt => exact absurd (compare_lt_iff_lt.mp h) hm.not_gt
  | eq => rfl
  | gt => exact roundWithAccuracy _ _ _

lemma add (hu : HasNoMinus u) (hv : HasNoMinus v) : HasNoMinus (UnpackedFloat.add spec u v) := by
  rcases u with (_ | _) | _ | (_ | _) | ⟨_ | _, m, e, _⟩ <;>
    rcases v with (_ | _) | _ | (_ | _) | ⟨_ | _, m', e', _⟩ <;>
      first | trivial | cases hu; done | cases hv; done | skip
  -- what remains is the sum of two positive numbers
  exact normalize (Int.natCast_nonneg _) _

lemma mul_self (u : UnpackedFloat) : HasNoMinus (UnpackedFloat.mul spec u u) := by
  cases u with
  | notANumber => trivial
  | infinity s => cases s <;> rfl
  | zero s => cases s <;> rfl
  | finite s m e hm => cases s <;> exact roundWithAccuracy _ _ _

/-- Only finite numbers without a minus sign are below another number. -/
lemma isFinite_of_lt (hu : HasNoMinus u) (h : u.lt v = true) : u.isFinite = true := by
  cases u with
  | notANumber => cases h
  | infinity s =>
    obtain rfl : s = .positive := hu
    rcases v with (_ | _) | _ | _ | _ <;> cases h
  | zero s => rfl
  | finite s m e hm => rfl

lemma not_lt_zero (hu : HasNoMinus u) : ¬ u.lt (.zero .positive) = true := by
  cases u with
  | notANumber => exact Bool.false_ne_true
  | zero s => exact Bool.false_ne_true
  | infinity s =>
    obtain rfl : s = .positive := hu
    exact Bool.false_ne_true
  | finite s m e hm =>
    obtain rfl : s = .positive := hu
    exact Bool.false_ne_true

end HasNoMinus

/-! ### Entries -/

namespace Single

variable {a b c : Float32}

lemma isFinite_of_isFinite_add (h : (a + b).isFinite = true) :
    a.isFinite = true ∧ b.isFinite = true :=
  isFinite_of_add (isFinite_of_stored h)

lemma isFinite_of_isFinite_sub (h : (a - b).isFinite = true) :
    a.isFinite = true ∧ b.isFinite = true :=
  isFinite_of_sub (isFinite_of_stored h)

lemma isFinite_of_isFinite_mul (h : (a * b).isFinite = true) :
    a.isFinite = true ∧ b.isFinite = true :=
  isFinite_of_mul (isFinite_of_stored h)

/-- The sum `a b + c`, rounded once. Only where all three are finite and not zero does this differ
from rounding the product first. -/
def fusedMulAdd (a b c : Float32) : Float32 :=
  match a.toModel.unpack, b.toModel.unpack, c.toModel.unpack with
  | .finite s m e hm, .finite s' m' e' hm', .finite s'' m'' e'' hm'' =>
    .ofModel <| Float32.Model.pack <| UnpackedFloat.add Format.binary32
      (.finite (s * s') (m * m') (e + e') (Nat.mul_pos hm hm')) (.finite s'' m'' e'' hm'')
  | _, _, _ => a * b + c

lemma isFinite_of_isFinite_fusedMulAdd (h : (fusedMulAdd a b c).isFinite = true) :
    a.isFinite = true ∧ b.isFinite = true ∧ c.isFinite = true := by
  rw [fusedMulAdd] at h
  split at h
  case h_1 ha hb hc =>
    change a.toModel.unpack.isFinite = true ∧ b.toModel.unpack.isFinite = true ∧
      c.toModel.unpack.isFinite = true
    rw [ha, hb, hc]
    exact ⟨rfl, rfl, rfl⟩
  case h_2 =>
    obtain ⟨hab, hc⟩ := isFinite_of_isFinite_add h
    obtain ⟨ha, hb⟩ := isFinite_of_isFinite_mul hab
    exact ⟨ha, hb, hc⟩

/-- An entry without a minus sign. -/
def IsSquareSum (a : Float32) : Prop := HasNoMinus a.toModel.unpack

lemma isSquareSum_zero : IsSquareSum 0 := rfl

lemma isSquareSum_mul_self (a : Float32) : IsSquareSum (a * a) :=
  (HasNoMinus.mul_self _).stored

lemma IsSquareSum.add (ha : IsSquareSum a) (hb : IsSquareSum b) : IsSquareSum (a + b) :=
  (HasNoMinus.add ha hb).stored

end Single

/-! ### Reading entries as scalars -/

/-- A number as it is before it is stored in binary64. -/
def widened : UnpackedFloat → UnpackedFloat
  | .finite s m e _ => UnpackedFloat.round Format.binary64 s m e
  | special => special

lemma isFinite_of_widened (h : (widened u).isFinite = true) : u.isFinite = true := by
  cases u with
  | notANumber => exact h
  | infinity s => exact h
  | zero s => rfl
  | finite s m e hm => rfl

lemma HasNoMinus.widened (h : HasNoMinus u) : HasNoMinus (widened u) := by
  cases u with
  | notANumber => trivial
  | infinity s => exact h
  | zero s => exact h
  | finite s m e hm =>
    obtain rfl : s = .positive := h
    exact roundWithAccuracy _ _ _

variable {a b : Float32}

/-- A number is stored twice when it is read as a scalar, the second time as it is. -/
lemma unpack_widen (a : Float32) : (widen a).toModel.unpack =
    UnpackedFloat.unpack Format.binary64 (UnpackedFloat.pack Format.binary64
      (UnpackedFloat.unpack Format.binary64 (UnpackedFloat.pack Format.binary64
        (widened a.toModel.unpack)))) := rfl

lemma isFinite_of_isFinite_widen (h : (widen a).isFinite = true) : a.isFinite = true :=
  isFinite_of_widened (isFinite_of_stored (isFinite_of_stored h))

lemma Single.IsSquareSum.hasNoMinus_widen (ha : Single.IsSquareSum a) :
    HasNoMinus (widen a).toModel.unpack := by
  rw [unpack_widen]
  exact ha.widened.stored.stored

/-- A sum of squares that is below another number is finite. -/
lemma Single.IsSquareSum.isFinite_of_lt (ha : Single.IsSquareSum a) {x : Float}
    (h : widen a < x) : (widen a).isFinite = true :=
  ha.hasNoMinus_widen.isFinite_of_lt (float_lt_iff.mp h)

end Workforce
