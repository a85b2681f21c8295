import Workforce.Proofs.Number.Entry

/-!
# Equal entries

An entry stands for a rational number or is infinite, unless it is undefined. Entries are equal when
they stand for one number: both zeros do, and an undefined entry does not even equal itself.
-/

namespace Workforce

open Float.Model Float.Model.UnpackedFloat

/-- What a floating point number stands for. -/
inductive ExactNumber where
  | rational (q : ℚ)
  | infinite (s : Sign)

/-- The number that a floating point number stands for, if it is defined. -/
def exactNumber? : UnpackedFloat → Option ExactNumber
  | .notANumber => none
  | .infinity s => some (.infinite s)
  | .zero _ => some (.rational 0)
  | .finite .positive m e _ => some (.rational (m * 2 ^ e))
  | .finite .negative m e _ => some (.rational (-(m * 2 ^ e)))

variable {spec : Format} {u v : UnpackedFloat} {m m' : ℕ} {e e' : ℤ}

lemma CanonicalIn.mul_eq_iff (h : CanonicalIn spec m e) (h' : CanonicalIn spec m' e') :
    (m * 2 ^ e : ℚ) = m' * 2 ^ e' ↔ e = e' ∧ m = m' := by
  constructor
  · intro heq
    exact (h.eq_of_mul_eq h' heq).symm
  · rintro ⟨rfl, rfl⟩
    rfl

/-- Numbers are equal when they stand for one. The numbers of a format are in lowest terms, so equal
ones have the same parts. -/
lemma beq_iff_exactNumber? (hu : ∀ s m e h, u = .finite s m e h → CanonicalIn spec m e)
    (hv : ∀ s m e h, v = .finite s m e h → CanonicalIn spec m e) :
    u.beq v = true ↔ ∃ q, exactNumber? u = some q ∧ exactNumber? v = some q := by
  have hbelow : compare Sign.negative Sign.positive = .lt := rfl
  have habove : compare Sign.positive Sign.negative = .gt := rfl
  have hsame (s : Sign) : compare s s = .eq := by cases s <;> rfl
  have hpos {m : ℕ} (e : ℤ) (h : 0 < m) : (0 : ℚ) < m * 2 ^ e := by positivity
  -- computing leaves zeros beside finite numbers, and two finite numbers
  rcases u with (_ | _) | _ | _ | ⟨_ | _, m, e, h⟩ <;>
    rcases v with (_ | _) | _ | _ | ⟨_ | _, m', e', h'⟩ <;>
      simp [UnpackedFloat.beq, UnpackedFloat.compare, exactNumber?, hbelow, habove, hsame]
  case zero.finite.negative | zero.finite.positive =>
    exact ⟨h'.ne', zpow_ne_zero _ two_ne_zero⟩
  case finite.negative.zero | finite.positive.zero =>
    exact ⟨h.ne', zpow_ne_zero _ two_ne_zero⟩
  case finite.negative.finite.positive | finite.positive.finite.negative =>
    have hm := hpos e h
    have hm' := hpos e' h'
    intro heq
    linarith
  case finite.negative.finite.negative | finite.positive.finite.positive =>
    exact ((hu _ _ _ _ rfl).mul_eq_iff (hv _ _ _ _ rfl)).symm.trans eq_comm

namespace Single

variable {a b : Float32}

/-- The number that an entry stands for, if it is defined. -/
def number? (a : Float32) : Option ExactNumber := exactNumber? a.toModel.unpack

/-- Two entries stand for one number. -/
def SameNumber (a b : Float32) : Prop := ∃ q, number? a = some q ∧ number? b = some q

lemma beq_iff : (a == b) = true ↔ SameNumber a b :=
  beq_iff_exactNumber? (fun _ _ _ _ hu => (canonicalIn_of_unpack (by decide) hu).1)
    fun _ _ _ _ hu => (canonicalIn_of_unpack (by decide) hu).1

end Single

end Workforce
