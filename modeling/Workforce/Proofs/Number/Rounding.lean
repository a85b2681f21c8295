import Mathlib

/-!
# Rounding to the nearest number

When the last bits of a mantissa are dropped, two bits remain of them. They say enough to round to
the nearest number, ties to the even one.
-/

namespace Workforce

open Float.Model Float.Model.UnpackedFloat

/-! ### Residual bits -/

/-- The mantissa is the integer part of a number, and the residual bits compare its fractional part
with one half and with zero. -/
structure Approximates (em : ExtendedMantissa) (q : ℚ) : Prop where
  mantissa_le : em.mantissa ≤ q
  lt_mantissa_add_one : q < em.mantissa + 1
  roundBit_iff : em.roundBit = true ↔ em.mantissa + 1 / 2 ≤ q
  stickyBit_iff : em.stickyBit = true ↔ q ≠ em.mantissa ∧ q ≠ em.mantissa + 1 / 2

/-- A natural number is the nearest one to a number, the even one of two that are equally near. -/
def IsNearestEven (q : ℚ) (n : ℕ) : Prop := ∀ k : ℕ, n ≤ k ↔ q < k + 1 / 2 ∨ q = k + 1 / 2 ∧ Even k

variable {em : ExtendedMantissa} {q q' : ℚ} {n n' : ℕ}

lemma approximates_exact (m : ℕ) : Approximates (.ofMantissaAndAccuracy m .exact) m := by
  constructor <;> simp [ExtendedMantissa.ofMantissaAndAccuracy]

/-- The bit that is shifted out says on which side of one half the rest lies, and the two bits
before it whether there is anything else. -/
lemma Approximates.shiftRightOne (h : Approximates em q) :
    Approximates em.shiftRightOne (q / 2) := by
  obtain ⟨m, roundBit, stickyBit⟩ := em
  obtain ⟨hle, hlt, hround, hsticky⟩ := h
  dsimp only at hle hlt hround hsticky
  have hrest : (roundBit || stickyBit) = true ↔ q ≠ m := by
    rw [Bool.or_eq_true, hround, hsticky]
    constructor
    · rintro (h | ⟨h, -⟩)
      · intro hq
        linarith
      · exact h
    · intro hq
      by_cases hhalf : q = m + 1 / 2
      · exact .inl hhalf.ge
      · exact .inr ⟨hq, hhalf⟩
  -- the last bit of the mantissa is the next bit for rounding
  rcases Nat.even_or_odd' m with ⟨k, rfl | rfl⟩
  · have hk : 2 * k / 2 = k := by omega
    push_cast at hle hlt hrest
    constructor <;> simp only [ExtendedMantissa.shiftRightOne, hk, hrest]
    · linarith
    · linarith
    · refine iff_of_false (by simp) (by linarith)
    · constructor
      · intro hq
        exact ⟨fun h => hq (by linarith), fun h => by linarith⟩
      · rintro ⟨hq, -⟩ h
        exact hq (by linarith)
  · have hk : (2 * k + 1) / 2 = k := by omega
    push_cast at hle hlt hrest
    constructor <;> simp only [ExtendedMantissa.shiftRightOne, hk, hrest]
    · linarith
    · linarith
    · refine iff_of_true (by simp) (by linarith)
    · constructor
      · intro hq
        exact ⟨fun h => by linarith, fun h => hq (by linarith)⟩
      · rintro ⟨-, hq⟩ h
        exact hq (by linarith)

lemma Approximates.shiftRight (h : Approximates em q) (n : ℕ) :
    Approximates (em >>> n) (q / 2 ^ n) := by
  change Approximates (n.repeat ExtendedMantissa.shiftRightOne em) _
  induction n with
  | zero => simpa [Nat.repeat] using h
  | succ n ih =>
    rw [Nat.repeat, pow_succ, ← div_div]
    exact ih.shiftRightOne

/-! ### Nearest numbers -/

lemma isNearestEven_of_lt (hlo : n - 1 / 2 < q) (hhi : q < n + 1 / 2) : IsNearestEven q n := by
  intro k
  constructor
  · intro hk
    have hk' : (n : ℚ) ≤ k := by exact_mod_cast hk
    exact .inl (by linarith)
  · intro hq
    by_contra hk
    have hk' : (k : ℚ) + 1 ≤ n := by exact_mod_cast not_le.mp hk
    rcases hq with hlt | ⟨heq, -⟩ <;> linarith

lemma isNearestEven_natCast (n : ℕ) : IsNearestEven n n :=
  isNearestEven_of_lt (by linarith) (by linarith)

/-- Halfway between two numbers the even one is taken. -/
lemma isNearestEven_half (m : ℕ) : IsNearestEven (m + 1 / 2) (m + m % 2) := by
  intro k
  have hlt : (m : ℚ) + 1 / 2 < k + 1 / 2 ↔ m < k := by
    rw [add_lt_add_iff_right, Nat.cast_lt]
  have heq : (m : ℚ) + 1 / 2 = k + 1 / 2 ↔ m = k := by
    rw [add_left_inj, Nat.cast_inj]
  rw [hlt, heq, Nat.even_iff]
  omega

lemma IsNearestEven.mono (h : IsNearestEven q n) (h' : IsNearestEven q' n') (hq : q ≤ q') :
    n ≤ n' := by
  rw [h]
  rcases (h' n').mp le_rfl with hlt | ⟨heq, heven⟩
  · exact .inl (hq.trans_lt hlt)
  · rcases (hq.trans heq.le).lt_or_eq with hlt | heq
    · exact .inl hlt
    · exact .inr ⟨heq, heven⟩

lemma IsNearestEven.lt_iff (h : IsNearestEven q n) {k : ℕ} (hk : 0 < k) :
    n < k ↔ q < k - 1 / 2 ∨ q = k - 1 / 2 ∧ Odd k := by
  obtain ⟨k, rfl⟩ := Nat.exists_eq_succ_of_ne_zero hk.ne'
  have hhalf : ((k + 1 : ℕ) : ℚ) - 1 / 2 = k + 1 / 2 := by
    push_cast
    ring
  rw [Nat.lt_succ_iff, h k, hhalf, Nat.odd_add_one, Nat.not_odd_iff_even]

/-- The residual bits are enough to find the nearest number. -/
lemma Approximates.isNearestEven (h : Approximates em q) :
    IsNearestEven q em.roundedMantissa := by
  obtain ⟨m, roundBit, stickyBit⟩ := em
  obtain ⟨hle, hlt, hround, hsticky⟩ := h
  dsimp only at hle hlt hround hsticky
  cases roundBit with
  | false =>
    have hhalf : q < m + 1 / 2 := not_le.mp fun h => by simpa using hround.mpr h
    have hm : (ExtendedMantissa.mk m false stickyBit).roundedMantissa = m := by
      cases stickyBit <;> rfl
    rw [hm]
    exact isNearestEven_of_lt (by linarith) hhalf
  | true =>
    have hhalf : (m : ℚ) + 1 / 2 ≤ q := hround.mp rfl
    cases stickyBit with
    | false =>
      -- nothing is left beyond the half: a tie
      have hq : q = m + 1 / 2 := by
        by_contra hne
        exact Bool.false_ne_true (hsticky.mpr ⟨fun h => by linarith, hne⟩)
      rw [hq]
      exact isNearestEven_half m
    | true =>
      have hne : (m : ℚ) + 1 / 2 < q := lt_of_le_of_ne hhalf (hsticky.mp rfl).2.symm
      refine isNearestEven_of_lt (n := m + 1) ?_ ?_ <;> push_cast <;> linarith

end Workforce
