import Workforce.Descent.Basic
import Workforce.Proofs.Failure
import Workforce.Proofs.Inverse.Exact

/-!
# The line search

`Searched` says declaratively how a line search ends: at the first scale whose trial decreases the
error, or below the floor after trials that all failed. A search returns exactly such a result, for
every problem and without any law of the arithmetic (`search_eq_ok_iff`), and so does a step
(`step_eq_ok_iff`).
-/

namespace Workforce

variable {σ α : Type} [Zero α] [Add α] [Mul α] [Steering σ α]

/-- The point `x'` is `x + a d`, the scale `a` being rounded to an entry. -/
def Moved (x d : Grid α) (a : σ) (x' : Grid α) : Prop :=
  ∃ k : α, entryOf a = .ok k ∧ x.add (d.scale k) = .ok x'

omit [Zero α] in
lemma Moved.shape_eq {x d x' : Grid α} {a : σ} (h : Moved x d a x') : x'.shape = x.shape := by
  obtain ⟨k, -, hx'⟩ := h
  exact Grid.shape_of_combine hx'

namespace Descent

variable {p : Problem α} {x d : Grid α} {error a : σ} {k trials : Nat}

lemma trial_eq_ok_iff {x' : Grid α} {error' : σ} :
    trial p x d a = .ok (x', error') ↔ Moved x d a x' ∧ p.errorAt x' = .ok error' := by
  simp only [trial, Moved, bind_eq_ok_iff, checked_eq_ok_iff, pure_eq_ok, Except.ok.injEq,
    Prod.mk.injEq]
  constructor
  · rintro ⟨k, hk, y, hy, e, he, rfl, rfl⟩
    exact ⟨⟨k, hk, hy⟩, he⟩
  · rintro ⟨⟨k, hk, hy⟩, he⟩
    exact ⟨k, hk, x', hy, error', he, rfl, rfl⟩

variable [Zero σ] [One σ] [Mul σ] [LT σ] [LE σ] {s : Descent σ}

/-- The scale `a` is tried, and the error that it leads to is not below `error`. -/
def TrialFails (p : Problem α) (x d : Grid α) (error a : σ) : Prop :=
  ∃ x' error', Moved x d a x' ∧ p.errorAt x' = .ok error' ∧ ¬ error' < error

/-- The first `k` scales are not below the floor and their trials fail. -/
def FailsUpTo (s : Descent σ) (p : Problem α) (x d : Grid α) (error : σ) (k : Nat) : Prop :=
  ∀ i < k, s.floor ≤ s.scaleAt i ∧ TrialFails p x d error (s.scaleAt i)

lemma FailsUpTo.succ (h : s.FailsUpTo p x d error k) (hle : s.floor ≤ s.scaleAt k)
    (hk : TrialFails p x d error (s.scaleAt k)) : s.FailsUpTo p x d error (k + 1) := by
  intro i hi
  rcases Nat.lt_succ_iff_lt_or_eq.mp hi with hlt | rfl
  · exact h i hlt
  · exact ⟨hle, hk⟩

variable [BEq σ] {r : Recorded σ α}

/-- The results of a line search from `x` along `d`. -/
inductive Searched (s : Descent σ) (p : Problem α) (x d : Grid α) (error : σ) :
    Recorded σ α → Prop where
  | accepted {k : Nat} {x' : Grid α} {error' : σ} (fails : s.FailsUpTo p x d error k)
      (not_below : s.floor ≤ s.scaleAt k) (moved : Moved x d (s.scaleAt k) x')
      (error_eq : p.errorAt x' = .ok error') (decreases : error' < error) :
      Searched s p x d error
        ⟨⟨x', error, error', some (s.scaleAt k), k + 1⟩,
          [.accepted (s.scaleAt k) (k + 1) error error']⟩
  | exhausted {k : Nat} (fails : s.FailsUpTo p x d error k) (below : ¬ s.floor ≤ s.scaleAt k) :
      Searched s p x d error
        ⟨⟨x, error, error, none, k⟩, [if error == 0 then .solved else .exhausted k error]⟩

variable [DecidableLT σ] [DecidableLE σ]

/-- A search that has come to scale number `trials` ends as `Searched` says. The invariant of the
loop is that all trials so far have failed. -/
lemma searched_of_search? {q : Except SolveError (Recorded σ α)}
    (h : s.search? p x d error a trials = some q) (hq : q = .ok r) (ha : a = s.scaleAt trials)
    (hfails : s.FailsUpTo p x d error trials) : Searched s p x d error r := by
  refine search?.partial_correctness s p x d error
    (fun a trials q => ∀ r, q = .ok r → a = s.scaleAt trials → s.FailsUpTo p x d error trials →
      Searched s p x d error r) ?_ a trials q h r hq ha hfails
  -- one turn of the loop: a trial below the floor or one that decreases the error is the last, and
  -- any other one extends the trials that have failed
  rintro search ih _ k q hstep r rfl rfl hfails
  by_cases hle : s.floor ≤ s.scaleAt k
  · rw [if_pos hle] at hstep
    cases ht : (trial p x d (s.scaleAt k) : Except SolveError (Grid α × σ)) with
    | error e => simp [ht] at hstep
    | ok y =>
      obtain ⟨x', error'⟩ := y
      simp only [ht] at hstep
      obtain ⟨hmoved, herror⟩ := trial_eq_ok_iff.mp ht
      by_cases hlt : error' < error
      · rw [if_pos hlt] at hstep
        cases hstep
        exact .accepted hfails hle hmoved herror hlt
      · rw [if_neg hlt] at hstep
        exact ih _ _ _ hstep r rfl rfl (hfails.succ hle ⟨x', error', hmoved, herror, hlt⟩)
  · rw [if_neg hle] at hstep
    cases hstep
    exact .exhausted hfails hle

/-- After trials that fail, a search goes on from the next scale. -/
lemma search?_of_failsUpTo (h : s.FailsUpTo p x d error k) :
    s.search? p x d error s.start 0 = s.search? p x d error (s.scaleAt k) k := by
  induction k with
  | zero => rfl
  | succ k ih =>
    obtain ⟨hle, x', error', hmoved, herror, hlt⟩ := h k k.lt_succ_self
    rw [ih fun i hi => h i (Nat.lt_succ_of_lt hi), search?, if_pos hle]
    simp only [trial_eq_ok_iff.mpr ⟨hmoved, herror⟩]
    rw [if_neg hlt]
    rfl

/-- What a search returns. -/
theorem search_eq_ok_iff : s.search p x d error = .ok r ↔ Searched s p x d error r := by
  constructor
  · intro h
    cases hs : s.search? p x d error s.start 0 with
    | none => simp [search, hs] at h
    | some q =>
      have hq : q = .ok r := by simpa [search, hs] using h
      exact searched_of_search? hs hq rfl fun i hi => absurd hi i.not_lt_zero
  · intro h
    cases h with
    | accepted fails not_below moved error_eq decreases =>
      rw [search, search?_of_failsUpTo fails, search?, if_pos not_below]
      simp only [trial_eq_ok_iff.mpr ⟨moved, error_eq⟩]
      rw [if_pos decreases]
      rfl
    | exhausted fails below =>
      rw [search, search?_of_failsUpTo fails, search?, if_neg below]
      rfl

variable [One α] [Neg α] [Inverter α]

/-- Where a problem has an error, a step is a search along its direction. -/
lemma step_eq_bind (hx : x.shape = ⟨p.parameters, 1⟩) (herror : p.errorAt x = .ok error) :
    s.step p x = (do
      let d ← p.direction s.damping x
      s.search p x d error) := by
  simp [step, hx, herror]

/-- What a step returns. -/
theorem step_eq_ok_iff : s.step p x = .ok r ↔
    x.shape = ⟨p.parameters, 1⟩ ∧ ∃ (error : σ) (d : Grid α), p.errorAt x = .ok error ∧
      p.direction s.damping x = .ok d ∧ Searched s p x d error r := by
  by_cases hx : x.shape = ⟨p.parameters, 1⟩
  · simp [step, hx, bind_eq_ok_iff, search_eq_ok_iff]
  · simp [step, hx]

/-- How a step ends. It takes the first scale that decreases the error, all scales before it being
tried in vain, or it stays after all scales down to the floor were tried in vain. It puts one entry
on record, a warning when it stays at an error that is not zero. -/
theorem outcome_of_step (h : s.step p x = .ok r) :
    ∃ d, p.direction s.damping x = .ok d ∧ p.errorAt x = .ok r.outcome.errorBefore ∧
      (r.outcome.accepted = true → ∃ k, r.outcome.trials = k + 1 ∧
        r.outcome.scale = some (s.scaleAt k) ∧ s.floor ≤ s.scaleAt k ∧
        Moved x d (s.scaleAt k) r.outcome.x ∧ p.errorAt r.outcome.x = .ok r.outcome.errorAfter ∧
        r.outcome.errorAfter < r.outcome.errorBefore ∧
        s.FailsUpTo p x d r.outcome.errorBefore k) ∧
      (r.outcome.accepted = false → r.outcome.x = x ∧ r.outcome.scale = none ∧
        r.outcome.errorAfter = r.outcome.errorBefore ∧
        s.FailsUpTo p x d r.outcome.errorBefore r.outcome.trials ∧
        ¬ s.floor ≤ s.scaleAt r.outcome.trials) ∧
      ∃ entry, r.record = [entry] ∧ (entry.level = .warning ↔
        r.outcome.accepted = false ∧ (r.outcome.errorBefore == 0) = false) := by
  obtain ⟨-, error, d, herror, hd, hr⟩ := step_eq_ok_iff.mp h
  refine ⟨d, hd, ?_⟩
  -- both clauses follow from how the search has ended, which excludes the other ending
  cases hr with
  | @accepted k x' error' fails not_below moved error_eq decreases =>
    refine ⟨herror, fun _ => ?_, fun hrejected => absurd hrejected (by simp [Outcome.accepted]), ?_⟩
    · exact ⟨k, rfl, rfl, not_below, moved, error_eq, decreases, fails⟩
    · exact ⟨_, rfl, by simp [Entry.level, Outcome.accepted]⟩
  | @exhausted k fails below =>
    refine ⟨herror, fun haccepted => absurd haccepted (by simp [Outcome.accepted]), fun _ => ?_, ?_⟩
    · exact ⟨rfl, rfl, rfl, fails, below⟩
    · refine ⟨_, rfl, ?_⟩
      cases error == 0 <;> simp [Entry.level, Outcome.accepted]

/-- The problem with the residual `x² - 2` in one parameter. -/
def rootOfTwo : Problem ℚ where
  equations := 1
  parameters := 1
  residual x := checked do (← x.entrywiseMul x).sub (.ofColumn [2])
  jacobian x := .ok (x.scale 2)

/-- The descent without damping that tries the scales `4`, `2`, …, `1 / 8`. -/
def halving : Descent ℚ where
  damping := 0
  start := 4
  shrink := 1 / 2
  floor := 1 / 8
  not_damping_neg := by simp
  shrink_pos := by norm_num
  shrink_lt_one := by norm_num
  floor_pos := by norm_num
  floor_lt_start := by norm_num

/-- From `2` the first trial leads to `0`, where the error is the same, and the second to `1`. -/
theorem outcome_of_step_second_trial :
    halving.step rootOfTwo (.ofColumn [2]) =
        .ok ⟨⟨.ofColumn [1], 4, 1, some 2, 2⟩, [.accepted 2 2 4 1]⟩ ∧
      ∃ d, rootOfTwo.direction (0 : ℚ) (.ofColumn [2]) = .ok d ∧
        Moved (.ofColumn [2]) d (2 : ℚ) (.ofColumn [1]) ∧
        halving.FailsUpTo rootOfTwo (.ofColumn [2]) d 4 1 := by
  have h : halving.step rootOfTwo (.ofColumn [2]) =
      .ok ⟨⟨.ofColumn [1], 4, 1, some 2, 2⟩, [.accepted 2 2 4 1]⟩ := by cbv
  obtain ⟨d, hd, -, haccepted, -, -⟩ := outcome_of_step h
  obtain ⟨k, hk, hscale, -, hmoved, -, -, hfails⟩ := haccepted rfl
  obtain rfl : k = 1 := by simpa using hk.symm
  rw [← Option.some.inj hscale] at hmoved
  exact ⟨h, d, hd, hmoved, hfails⟩

end Descent

end Workforce
