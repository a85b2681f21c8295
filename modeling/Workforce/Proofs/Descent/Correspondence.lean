import Workforce.Proofs.Descent.Termination

/-!
# Line searches that correspond

Two line searches correspond when their scales come to the floor together and their trials lead to
corresponding points with equal errors. Then so do their results, also where a trial fails or the
search does not end (`search_eq_map`).
-/

namespace Workforce

variable {σ α : Type}

/-- The outcome with another scale and another point. -/
def Outcome.map (f : σ → σ) (g : Grid α → Grid α) (o : Outcome σ α) : Outcome σ α :=
  { o with x := g o.x, scale := o.scale.map f }

/-- The entry with another scale. -/
def Entry.map (f : σ → σ) : Entry σ → Entry σ
  | accepted scale trials before after => accepted (f scale) trials before after
  | solved => solved
  | exhausted trials error => exhausted trials error

/-- The outcome and the record of a step with other scales and another point. -/
def Recorded.map (f : σ → σ) (g : Grid α → Grid α) (r : Recorded σ α) : Recorded σ α :=
  ⟨r.outcome.map f g, r.record.map (Entry.map f)⟩

namespace Descent

variable [Zero σ] [One σ] [Mul σ] [LT σ] [LE σ] [Zero α] [Add α] [Mul α] [Steering σ α]
variable {s s' : Descent σ} {p p' : Problem α} {x d x' d' : Grid α} {f : σ → σ}
variable {g : Grid α → Grid α} {error : σ} {i : ℕ}

/-- The search of `s` on `p` from `x` along `d` corresponds to that of `s'` on `p'` from `x'` along
`d'`, scales being read through `f` and points through `g`. -/
structure Corresponds (f : σ → σ) (g : Grid α → Grid α) (s s' : Descent σ) (p p' : Problem α)
    (x d x' d' : Grid α) : Prop where
  point_eq : x = g x'
  scaleAt_eq (i : ℕ) : s.scaleAt i = f (s'.scaleAt i)
  floor_le_iff (i : ℕ) : s.floor ≤ s.scaleAt i ↔ s'.floor ≤ s'.scaleAt i
  trial_eq (i : ℕ) : (trial p x d (s.scaleAt i) : Except SolveError (Grid α × σ)) =
    (trial p' x' d' (s'.scaleAt i)).map (Prod.map g id)

namespace Corresponds

lemma trialFails_iff (h : Corresponds f g s s' p p' x d x' d') :
    TrialFails p x d error (s.scaleAt i) ↔ TrialFails p' x' d' error (s'.scaleAt i) := by
  simp only [TrialFails, ← and_assoc, ← trial_eq_ok_iff, h.trial_eq, map_eq_ok_iff]
  constructor
  · rintro ⟨y, e, ⟨⟨y', e'⟩, hy', heq⟩, hlt⟩
    cases heq
    exact ⟨y', e', hy', hlt⟩
  · rintro ⟨y', e', hy', hlt⟩
    exact ⟨g y', e', ⟨_, hy', rfl⟩, hlt⟩

lemma inVain_iff (h : Corresponds f g s s' p p' x d x' d') :
    s.floor ≤ s.scaleAt i ∧ TrialFails p x d error (s.scaleAt i) ↔
      s'.floor ≤ s'.scaleAt i ∧ TrialFails p' x' d' error (s'.scaleAt i) :=
  and_congr (h.floor_le_iff i) h.trialFails_iff

variable [BEq σ] [DecidableLT σ] [DecidableLE σ]

/-- Searches that correspond have corresponding results. They go on together as long as trials fail,
and the first scale that is below the floor or does not fail ends both in the same way. -/
lemma search?_eq_map (h : Corresponds f g s s' p p' x d x' d') (error : σ) :
    s.search? p x d error s.start 0 =
      (s'.search? p' x' d' error s'.start 0).map (Except.map (Recorded.map f g)) := by
  -- neither search need end, so both are cut at the first trial that does not fail
  by_cases hall : ∀ k, s'.floor ≤ s'.scaleAt k ∧ TrialFails p' x' d' error (s'.scaleAt k)
  · rw [search?_eq_none_iff_forall.mpr hall,
      search?_eq_none_iff_forall.mpr fun k => h.inVain_iff.mpr (hall k)]
    rfl
  obtain ⟨k, hk, hfirst'⟩ := exists_failsUpTo_of_not_forall hall
  have hfirst : s.FailsUpTo p x d error k := fun i hi => h.inVain_iff.mpr (hfirst' i hi)
  rw [search?_of_failsUpTo hfirst, search?_of_failsUpTo hfirst']
  -- only the first turn of each search is unfolded
  conv_lhs => rw [search?]
  conv_rhs => rw [search?]
  by_cases hle : s'.floor ≤ s'.scaleAt k
  · rw [if_pos hle, if_pos ((h.floor_le_iff k).mpr hle), h.trial_eq]
    cases ht : (trial p' x' d' (s'.scaleAt k) : Except SolveError (Grid α × σ)) with
    | error e => rfl
    | ok y =>
      obtain ⟨y, error'⟩ := y
      obtain ⟨hmoved, herror'⟩ := trial_eq_ok_iff.mp ht
      have hlt : error' < error :=
        not_not.mp fun hlt => hk ⟨hle, y, error', hmoved, herror', hlt⟩
      simp [Except.map, hlt, h.scaleAt_eq, Recorded.map, Outcome.map, Entry.map]
  · rw [if_neg hle, if_neg ((h.floor_le_iff k).not.mpr hle), h.point_eq]
    cases error == 0 <;> rfl

theorem search_eq_map (h : Corresponds f g s s' p p' x d x' d') (error : σ) :
    s.search p x d error = (s'.search p' x' d' error).map (Recorded.map f g) := by
  rw [search, search, h.search?_eq_map]
  cases s'.search? p' x' d' error s'.start 0 <;> rfl

end Corresponds

end Descent

end Workforce
