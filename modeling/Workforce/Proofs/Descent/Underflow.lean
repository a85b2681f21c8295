import Workforce.Proofs.Descent.Overflow
import Workforce.Proofs.Number.Widening

/-!
# Errors that underflow

The square of a residual is rounded to zero if the residual is at most `2⁻⁷⁵`. Sums of squares do
not underflow, in whichever order they are taken. So an error is zero exactly if all residuals are
that small. From there no trial decreases the error, and the step records that the residuals are
zero.
-/

namespace Workforce

variable {m n : ℕ}

/-! ### Squared norms -/

/-- The number is finite, and so small that its square is rounded to zero. -/
def Single.IsNegligible (a : Float32) : Prop := a.isFinite = true ∧ value a ≤ 2 ^ (-75 : ℤ)

lemma Single.mul_self_beq_zero_iff {a : Float32} : (a * a == 0) = true ↔ IsNegligible a := by
  by_cases ha : a.isFinite = true
  · have hsquare : (2 ^ (-150 : ℤ) : ℚ) = 2 ^ (-75 : ℤ) * 2 ^ (-75 : ℤ) := by norm_num
    rw [mul_beq_zero_iff ha ha, hsquare, IsNegligible, and_iff_right ha,
      mul_self_le_mul_self_iff (value_nonneg a) (by positivity)]
  · exact iff_of_false (fun h => ha (isFinite_of_isFinite_mul (isFinite_of_beq_zero h)).1)
      fun h => ha h.1

namespace Mat

/-- All entries are negligible. -/
def IsNegligible (F : Mat Float32 m n) : Prop := ∀ i j, Single.IsNegligible (F.get i j)

lemma IsNegligible.isFinite {F : Mat Float32 m n} (h : F.IsNegligible) : F.isFinite = true :=
  isFinite_iff.mpr fun i j => (h i j).1

lemma normSquared_beq_zero_iff {F : Mat Float32 m n} :
    (F.normSquared == 0) = true ↔ F.IsNegligible := by
  by_cases hF : F.isFinite = true
  · have hsquares : ∀ b ∈ F.entries.map (fun a => a * a), 0 ≤ b := by
      rw [List.forall_mem_map]
      intro a ha
      have hfinite : a.isFinite = true := List.all_eq_true.mp hF a ha
      exact Single.zero_le_of_hasNoMinus (Single.isSquareSum_mul_self a)
        (Single.isProper_mul hfinite hfinite)
    obtain ⟨-, hzero⟩ := Single.beq_zero_iff_of_addsUp (addsUp_sumPairwise _ _) hsquares
    rw [normSquared, hzero, List.forall_mem_map]
    simp only [Single.mul_self_beq_zero_iff]
    exact forall_mem_entries_iff
  · exact iff_of_false (fun h => hF (isFinite_of_normSquared (Single.isFinite_of_beq_zero h)))
      fun h => hF h.isFinite

end Mat

/-! ### Steps -/

variable {p : Problem Float32} {x : Grid Float32} {e : Quantity}

lemma Problem.errorAt_beq_zero_iff (h : p.errorAt x = .ok e) :
    (e == 0) = true ↔ ∃ f, p.residual x = .ok f ∧ f.body.IsNegligible := by
  obtain ⟨f, hf, rfl⟩ := errorAt_eq_ok_iff.mp h
  have hiff : (Quantity.real (widen f.normSquared) == 0) = true ↔ f.body.IsNegligible :=
    f.body.isSquareSum_normSquared.real_widen_beq_zero_iff.trans Mat.normSquared_beq_zero_iff
  rw [hiff]
  constructor
  · exact fun hnegligible => ⟨f, hf, hnegligible⟩
  · rintro ⟨g, hg, hnegligible⟩
    cases hf.symm.trans hg
    exact hnegligible

lemma Problem.not_errorAt_lt_zero (h : p.errorAt x = .ok e) : ¬ e < 0 := by
  obtain ⟨f, -, rfl⟩ := errorAt_eq_ok_iff.mp h
  exact f.body.isSquareSum_normSquared.not_real_widen_lt_zero

namespace Descent

variable {s : Descent Quantity} {r : Recorded Quantity Float32}

/-- A step from an error of zero stays, and this is what it records. -/
lemma errorBefore_beq_zero_iff_record [Inverter Float32] (h : s.step p x = .ok r) :
    (r.outcome.errorBefore == 0) = true ↔ r.record = [.solved] := by
  obtain ⟨-, error, d, herror, -, hr⟩ := step_eq_ok_iff.mp h
  cases hr with
  | accepted fails not_below moved error_eq decreases =>
    refine iff_of_false (fun hzero => ?_) (by simp)
    exact Problem.not_errorAt_lt_zero error_eq (Quantity.neg_of_lt_of_beq_zero decreases hzero)
  | exhausted fails below =>
    dsimp only
    split_ifs with hzero
    · exact iff_of_true hzero rfl
    · exact iff_of_false hzero (by simp)

/-- A squared norm is zero exactly if all entries are negligible. So a step finds the error zero,
and records that the residuals are zero, exactly if these are negligible. -/
theorem errorBefore_beq_zero_iff [Inverter Float32] (F : Mat Float32 m n) :
    ((F.normSquared == 0) = true ↔ F.IsNegligible) ∧
    ∀ (s : Descent Quantity) (p : Problem Float32) (x : Grid Float32)
      (r : Recorded Quantity Float32), s.step p x = .ok r →
        ((r.outcome.errorBefore == 0) = true ↔
          ∃ f, p.residual x = .ok f ∧ f.body.IsNegligible) ∧
        ((r.outcome.errorBefore == 0) = true ↔ r.record = [.solved]) := by
  refine ⟨Mat.normSquared_beq_zero_iff, fun s p x r h => ⟨?_, errorBefore_beq_zero_iff_record h⟩⟩
  obtain ⟨hbefore, -⟩ := errorAt_of_step h
  exact Problem.errorAt_beq_zero_iff hbefore

/-- At `10⁻³⁰` the residual is not zero, but negligible. -/
theorem errorBefore_beq_zero_negligible :
    (⟨#v[#v[1e-30]]⟩ : Mat Float32 1 1).IsNegligible ∧
      ∃ r, fullSteps.step distanceToZero (.ofColumn [1e-30]) = .ok r ∧ r.record = [.solved] ∧
        ∃ f, distanceToZero.residual (.ofColumn [1e-30]) = .ok f ∧ f.body.IsNegligible := by
  have hzero : (Quantity.real 0 == 0) = true := by decide +kernel
  have hfails : TrialFails distanceToZero (.ofColumn [1e-30]) (.ofColumn [-1e-30]) (.real 0)
      (fullSteps.scaleAt 0) :=
    ⟨.ofColumn [0], .real 0, ⟨1, by decide +kernel, by decide +kernel⟩, by decide +kernel,
      by decide +kernel⟩
  have hsearched := Searched.exhausted (k := 1)
    (FailsUpTo.succ (s := fullSteps) (by simp [FailsUpTo]) (by decide +kernel) hfails)
    (by decide +kernel)
  have hstep : fullSteps.step distanceToZero (.ofColumn [1e-30]) = .ok _ := step_eq_ok_iff.mpr
    ⟨rfl, .real 0, .ofColumn [-1e-30], by decide +kernel, by decide +kernel, hsearched⟩
  obtain ⟨hnorm, hsteps⟩ := errorBefore_beq_zero_iff (⟨#v[#v[1e-30]]⟩ : Mat Float32 1 1)
  obtain ⟨hnegligible, hrecord⟩ := hsteps _ _ _ _ hstep
  exact ⟨hnorm.mp (by decide +kernel), _, hstep, hrecord.mp hzero, hnegligible.mp hzero⟩

/-- The squared norm of a nonzero entry may be zero. -/
theorem normSquared_beq_zero_of_nonzero :
    ¬ ∀ (m n : ℕ) (F : Mat Float32 m n), F.isFinite = true →
      ((F.normSquared == 0) = true ↔ ∀ i j, (F.get i j == 0) = true) := by
  intro h
  have hzero := (h 1 1 ⟨#v[#v[1e-30]]⟩ (by decide +kernel)).mp (by decide +kernel) 0 0
  exact absurd hzero (by decide +kernel)

end Descent

end Workforce
