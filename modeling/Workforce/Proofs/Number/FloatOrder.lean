import Mathlib
import Workforce.Number.Quantity

/-!
# The order of floating point numbers

A floating point number that compares at all has a place in a linear order, its `orderKey`, and
comparing two numbers is comparing their places. So `<` is irreflexive and transitive, although
a number that does not compare is neither below nor above any other.
-/

namespace Workforce

open Float.Model

/-- The place of a number in the order: below zero or above it, then by exponent, then by
significand. A number that does not compare has none. -/
def orderKey : UnpackedFloat → Option (ℤ ×ₗ ℤ ×ₗ ℤ)
  | .infinity .negative => some (toLex (-2, toLex (0, 0)))
  | .finite .negative m e _ => some (toLex (-1, toLex (-e, -m)))
  | .zero _ => some (toLex (0, toLex (0, 0)))
  | .finite .positive m e _ => some (toLex (1, toLex (e, m)))
  | .infinity .positive => some (toLex (2, toLex (0, 0)))
  | .notANumber => none

section Compare

variable {β γ : Type} [LinearOrder β] [LinearOrder γ] {e e' : β} {m m' : γ}

lemma then_eq_lt_iff :
    (compare e e').then (compare m m') = .lt ↔ e < e' ∨ e = e' ∧ m < m' := by
  simp [Ordering.then_eq_lt, compare_lt_iff_lt]

lemma then_eq_gt_iff :
    (compare e e').then (compare m m') = .gt ↔ e' < e ∨ e = e' ∧ m' < m := by
  simp [Ordering.then_eq_gt, compare_gt_iff_gt]

end Compare

lemma lt_iff_orderKey {a b : UnpackedFloat} :
    a.lt b = true ↔ ∃ u v, orderKey a = some u ∧ orderKey b = some v ∧ u < v := by
  have hsign : compare UnpackedFloat.Sign.negative UnpackedFloat.Sign.positive = .lt := rfl
  rcases a with (_ | _) | _ | _ | ⟨_ | _, m, e, _⟩ <;>
    rcases b with (_ | _) | _ | _ | ⟨_ | _, m', e', _⟩ <;>
      simp [UnpackedFloat.lt, UnpackedFloat.compare, orderKey, Prod.Lex.toLex_lt_toLex,
        then_eq_lt_iff, then_eq_gt_iff, hsign]

lemma unpackedLt_trans {a b c : UnpackedFloat} (hab : a.lt b = true) (hbc : b.lt c = true) :
    a.lt c = true := by
  obtain ⟨u, v, hu, hv, huv⟩ := lt_iff_orderKey.mp hab
  obtain ⟨v', w, hv', hw, hvw⟩ := lt_iff_orderKey.mp hbc
  obtain rfl : v = v' := Option.some.inj (hv.symm.trans hv')
  exact lt_iff_orderKey.mpr ⟨u, w, hu, hw, huv.trans hvw⟩

lemma unpackedLt_irrefl (a : UnpackedFloat) : ¬ a.lt a = true := by
  intro h
  obtain ⟨u, v, hu, hv, huv⟩ := lt_iff_orderKey.mp h
  obtain rfl : u = v := Option.some.inj (hu.symm.trans hv)
  exact lt_irrefl u huv

lemma float_lt_iff {x y : Float} : x < y ↔ x.toModel.unpack.lt y.toModel.unpack = true := by
  change decide (x.toModel < y.toModel) = true ↔ _
  rw [decide_eq_true_iff]
  rfl

lemma float_lt_irrefl (x : Float) : ¬ x < x := fun h => unpackedLt_irrefl _ (float_lt_iff.mp h)

lemma float_lt_trans {x y z : Float} (hxy : x < y) (hyz : y < z) : x < z :=
  float_lt_iff.mpr (unpackedLt_trans (float_lt_iff.mp hxy) (float_lt_iff.mp hyz))

end Workforce
