import Workforce.Proofs.Descent.Linear

/-!
# Exhausted line searches

In exact arithmetic the scales of a line search are a geometric sequence, which passes below the
floor once and for all. So all searches in which no trial decreases the error make the same number
of trials, one for each scale that is not below the floor; a scale at the floor itself is tried.
-/

namespace Workforce

namespace Descent

variable {K α : Type} [Field K] [LinearOrder K] {s : Descent K} {k n : ℕ}

/-! ### The number of scales -/

/-- The first `n` scales are not below the floor, and the next one is. -/
def IsTrialCount (s : Descent K) (n : ℕ) : Prop :=
  IsLeast {k : ℕ | s.start * s.shrink ^ k < s.floor} n

variable [IsStrictOrderedRing K]

lemma exists_isTrialCount [Archimedean K] (s : Descent K) : ∃ n, s.IsTrialCount n := by
  classical
  obtain ⟨k, hk⟩ := s.exists_scaleAt_lt_floor
  rw [scaleAt_eq, not_le] at hk
  have hbelow : ∃ k, s.start * s.shrink ^ k < s.floor := ⟨k, hk⟩
  exact ⟨Nat.find hbelow, Nat.find_spec hbelow, fun i hi => Nat.find_min' hbelow hi⟩

lemma scaleAt_antitone : Antitone s.scaleAt := by
  refine antitone_nat_of_succ_le fun k => ?_
  have hpos : 0 < s.scaleAt k := by
    rw [scaleAt_eq]
    exact mul_pos s.start_pos (pow_pos s.shrink_pos k)
  exact mul_le_of_le_one_right hpos.le s.shrink_lt_one.le

lemma IsTrialCount.floor_le_iff (hn : s.IsTrialCount n) : s.floor ≤ s.scaleAt k ↔ k < n := by
  constructor
  · intro hle
    by_contra hnk
    have hbelow : s.scaleAt n < s.floor := (scaleAt_eq n).trans_lt hn.1
    exact (hle.trans (scaleAt_antitone (not_lt.mp hnk))).not_gt hbelow
  · intro hk
    by_contra hbelow
    rw [scaleAt_eq, not_le] at hbelow
    exact hk.not_ge (hn.2 hbelow)

/-- The first scale is above the floor, so it is tried. -/
lemma IsTrialCount.one_le (hn : s.IsTrialCount n) : 1 ≤ n :=
  hn.floor_le_iff.mp s.floor_lt_start.le

/-! ### Searches in vain -/

variable [Zero α] [Add α] [Mul α] [Steering K α] {p : Problem α} {x d : Grid α} {error : K}
variable {r : Recorded K α}

/-- The result of a step that stays at `x` after `n` trials. -/
def staying (x : Grid α) (error : K) (n : ℕ) : Recorded K α :=
  ⟨⟨x, error, error, none, n⟩, [if error == 0 then .solved else .exhausted n error]⟩

/-- A search stays after all its trials exactly if they all fail. -/
lemma searched_staying_iff (hn : s.IsTrialCount n) :
    Searched s p x d error (staying x error n) ↔
      ∀ k, s.floor ≤ s.scaleAt k → TrialFails p x d error (s.scaleAt k) := by
  constructor
  · intro h k hle
    cases h with
    | exhausted fails below => exact (fails k (hn.floor_le_iff.mp hle)).2
  · intro h
    refine .exhausted (fun k hk => ?_) fun hle => lt_irrefl n (hn.floor_le_iff.mp hle)
    have hle := hn.floor_le_iff.mpr hk
    exact ⟨hle, h k hle⟩

/-- A search that stays has made all its trials. -/
lemma trials_of_searched (hn : s.IsTrialCount n) (h : Searched s p x d error r)
    (hrejected : r.outcome.accepted = false) : r.outcome.trials = n := by
  cases h with
  | accepted fails not_below moved error_eq decreases => cases hrejected
  | @exhausted k fails below =>
    -- `k` scales are not below the floor, and the next one is
    have hle : n ≤ k := not_lt.mp (mt hn.floor_le_iff.mpr below)
    refine le_antisymm (not_lt.mp fun hlt => ?_) hle
    exact lt_irrefl n (hn.floor_le_iff.mp (fails n hlt).1)

variable [One α] [Neg α] [Inverter α]

/-- The number of trials of a step that stays is the least exponent at which the scale is below the
floor, which is at least one. A step stays, and returns, exactly if no trial of a scale that is not
below the floor decreases the error. -/
theorem step_exhausted [Archimedean K] (s : Descent K) :
    ∃ n, 1 ≤ n ∧ IsLeast {k : ℕ | s.start * s.shrink ^ k < s.floor} n ∧
      ∀ (p : Problem α) (x : Grid α),
        (∀ r, s.step p x = .ok r → r.outcome.accepted = false → r.outcome.trials = n) ∧
        ∀ (error : K) (d : Grid α), x.shape = ⟨p.parameters, 1⟩ → p.errorAt x = .ok error →
          p.direction s.damping x = .ok d →
          ((∀ k : ℕ, s.floor ≤ s.start * s.shrink ^ k →
              TrialFails p x d error (s.start * s.shrink ^ k)) ↔
            s.step p x = .ok ⟨⟨x, error, error, none, n⟩,
              [if error == 0 then .solved else .exhausted n error]⟩) := by
  obtain ⟨n, hn⟩ := s.exists_isTrialCount
  refine ⟨n, hn.one_le, hn, fun p x => ⟨fun r hr hrejected => ?_, fun error d hx herror hd => ?_⟩⟩
  · obtain ⟨-, error, d, -, -, hsearched⟩ := step_eq_ok_iff.mp hr
    exact trials_of_searched hn hsearched hrejected
  · simp only [← scaleAt_eq]
    rw [← searched_staying_iff hn, step_eq_bind hx herror, hd, ok_bind, search_eq_ok_iff]
    rfl

/-- The problem whose only residual is one everywhere. -/
def insoluble : Problem ℚ where
  equations := 1
  parameters := 1
  residual _ := .ok (.ofColumn [1])
  jacobian _ := .ok (.ofColumn [1])

/-- Of the scales `4`, `2`, …, all six down to the floor `1 / 8` are tried. -/
theorem step_exhausted_at_floor :
    IsLeast {k : ℕ | (4 * (1 / 2) ^ k : ℚ) < 1 / 8} 6 ∧
      halving.step insoluble (.ofColumn [2]) =
        .ok ⟨⟨.ofColumn [2], 1, 1, none, 6⟩, [.exhausted 6 1]⟩ := by
  have hsix : IsLeast {k : ℕ | (4 * (1 / 2) ^ k : ℚ) < 1 / 8} 6 := by
    refine ⟨by norm_num, fun k hk => ?_⟩
    by_contra hlt
    obtain hk' : k ≤ 5 := by omega
    have hle : (1 / 2 : ℚ) ^ 5 ≤ (1 / 2) ^ k := pow_le_pow_of_le_one (by norm_num) (by norm_num) hk'
    have hbelow : (4 * (1 / 2) ^ k : ℚ) < 1 / 8 := hk
    linarith
  obtain ⟨n, -, hn, hsteps⟩ := step_exhausted (α := ℚ) halving
  obtain rfl : n = 6 := hn.unique hsix
  have herror (x : Grid ℚ) : (insoluble.errorAt x : Except SolveError ℚ) = .ok 1 := by cbv
  obtain ⟨d, hd⟩ : ∃ d : Mat ℚ 1 1, insoluble.direction (0 : ℚ) (.ofColumn [2]) = .ok ⟨d⟩ :=
    ⟨.ofFn fun _ _ => -1, by cbv⟩
  refine ⟨hsix, ((hsteps insoluble (.ofColumn [2])).2 1 ⟨d⟩ rfl (herror _) hd).mp fun k _ => ?_⟩
  exact ⟨_, 1, moved_iff.mpr rfl, herror _, lt_irrefl _⟩

end Descent

end Workforce
