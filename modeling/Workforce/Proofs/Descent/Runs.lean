import Workforce.Proofs.Descent.LineSearch
import Workforce.Proofs.Number.FloatOrder

/-!
# Runs of a descent

A run takes successive steps, `Steps`. Its errors form a chain that goes down with every step that
moves; a step that stays is repeated to the end of the run. All of this rests on what one step
returns, with no law of the arithmetic but that errors are strictly ordered.
-/

namespace Workforce

variable {σ α : Type}

namespace Outcome

@[simp] lemma lastPoint_nil (x : Grid α) : lastPoint x ([] : List (Outcome σ α)) = x := rfl

@[simp] lemma lastPoint_cons (x : Grid α) (o : Outcome σ α) (os : List (Outcome σ α)) :
    lastPoint x (o :: os) = lastPoint o.x os := by
  cases os with
  | nil => rfl
  | cons o' os => simp [lastPoint, List.getLast?_cons]

end Outcome

/-- Entries that are read as scalars are strictly ordered. -/
class OrderedErrors (σ α : Type) [LT σ] [Steering σ α] : Prop where
  irrefl (a : α) : ¬ (Steering.ofEntry a : σ) < Steering.ofEntry a
  trans {a b c : α} : (Steering.ofEntry a : σ) < Steering.ofEntry b →
    (Steering.ofEntry b : σ) < Steering.ofEntry c → (Steering.ofEntry a : σ) < Steering.ofEntry c

instance : OrderedErrors Quantity Float32 where
  irrefl a h := float_lt_irrefl (widen a) ((Quantity.lt_real _ _).mp h)
  trans hab hbc := (Quantity.lt_real _ _).mpr <|
    float_lt_trans ((Quantity.lt_real _ _).mp hab) ((Quantity.lt_real _ _).mp hbc)

namespace Problem

variable [Zero α] [Add α] [Mul α] [LT σ] [Steering σ α] [OrderedErrors σ α]
variable {p : Problem α} {x y z : Grid α} {e e' e'' : σ}

lemma errorAt_lt_irrefl (hx : p.errorAt x = .ok e) : ¬ e < e := by
  obtain ⟨a, -, rfl⟩ := map_eq_ok_iff.mp hx
  exact OrderedErrors.irrefl a

lemma errorAt_lt_trans (hx : p.errorAt x = .ok e) (hy : p.errorAt y = .ok e')
    (hz : p.errorAt z = .ok e'') (h : e < e') (h' : e' < e'') : e < e'' := by
  obtain ⟨a, -, rfl⟩ := map_eq_ok_iff.mp hx
  obtain ⟨b, -, rfl⟩ := map_eq_ok_iff.mp hy
  obtain ⟨c, -, rfl⟩ := map_eq_ok_iff.mp hz
  exact OrderedErrors.trans h h'

end Problem

namespace Descent

variable [Zero σ] [One σ] [Mul σ] [LT σ] [LE σ] [BEq σ] [DecidableLT σ] [DecidableLE σ]
variable [Zero α] [One α] [Add α] [Mul α] [Neg α] [Inverter α] [Steering σ α]
variable {s : Descent σ} {p : Problem α} {x : Grid α} {r : Recorded σ α}
variable {os : List (Outcome σ α)} {n m : ℕ}

/-! ### One step -/

/-- The errors of an outcome are those at its two ends. -/
lemma errorAt_of_step (h : s.step p x = .ok r) :
    p.errorAt x = .ok r.outcome.errorBefore ∧
      p.errorAt r.outcome.x = .ok r.outcome.errorAfter := by
  obtain ⟨-, error, d, herror, -, hr⟩ := step_eq_ok_iff.mp h
  cases hr with
  | accepted fails not_below moved error_eq decreases => exact ⟨herror, error_eq⟩
  | exhausted fails below => exact ⟨herror, herror⟩

/-- A step that moves decreases the error. -/
lemma decreases_of_step (h : s.step p x = .ok r) (haccepted : r.outcome.accepted = true) :
    r.outcome.errorAfter < r.outcome.errorBefore := by
  obtain ⟨-, error, d, herror, -, hr⟩ := step_eq_ok_iff.mp h
  cases hr with
  | accepted fails not_below moved error_eq decreases => exact decreases
  | exhausted fails below => simp [Outcome.accepted] at haccepted

/-- A step that stays keeps its point and its error. -/
lemma stays_of_step (h : s.step p x = .ok r) (hrejected : r.outcome.accepted = false) :
    r.outcome.x = x ∧ r.outcome.errorAfter = r.outcome.errorBefore := by
  obtain ⟨-, error, d, herror, -, hr⟩ := step_eq_ok_iff.mp h
  cases hr with
  | accepted fails not_below moved error_eq decreases => simp [Outcome.accepted] at hrejected
  | exhausted fails below => exact ⟨rfl, rfl⟩

/-- A step keeps the shape of its point. -/
lemma shape_of_step (h : s.step p x = .ok r) : r.outcome.x.shape = x.shape := by
  obtain ⟨-, error, d, -, -, hr⟩ := step_eq_ok_iff.mp h
  cases hr with
  | accepted fails not_below moved error_eq decreases => exact moved.shape_eq
  | exhausted fails below => rfl

/-! ### Successive steps -/

/-- The outcomes of successive steps from `x`. -/
inductive Steps (s : Descent σ) (p : Problem α) : Grid α → List (Outcome σ α) → Prop where
  | nil {x : Grid α} : Steps s p x []
  | cons {x : Grid α} {r : Recorded σ α} {os : List (Outcome σ α)} (step : s.step p x = .ok r)
      (steps : Steps s p r.outcome.x os) : Steps s p x (r.outcome :: os)

@[simp] lemma iterate_zero : s.iterate p x 0 = .ok [] := rfl

/-- A run of steps is its first step, then a run from where that step ended. -/
lemma iterate_succ :
    s.iterate p x (n + 1) =
      (do
        let r ← s.step p x
        let os ← s.iterate p r.outcome.x n
        pure (r.outcome :: os)) := by
  cases hstep : s.step p x with
  | error e => simp [iterate, run, hstep]
  | ok r =>
    simp only [iterate, run, hstep, Run.cons, ok_bind]
    cases (s.run p r.outcome.x n).failure <;> rfl

theorem iterate_eq_ok_iff : s.iterate p x n = .ok os ↔ os.length = n ∧ Steps s p x os := by
  induction n generalizing x os with
  | zero =>
    constructor
    · intro h
      cases h
      exact ⟨rfl, .nil⟩
    · rintro ⟨hlength, -⟩
      rw [List.length_eq_zero_iff.mp hlength, iterate_zero]
  | succ n ih =>
    simp only [iterate_succ, bind_eq_ok_iff, pure_eq_ok, Except.ok.injEq]
    constructor
    · rintro ⟨r, hstep, os, hos, rfl⟩
      obtain ⟨hlength, hsteps⟩ := ih.mp hos
      exact ⟨by simp [hlength], .cons hstep hsteps⟩
    · rintro ⟨hlength, hsteps⟩
      cases hsteps with
      | nil => simp at hlength
      | cons hstep hsteps => exact ⟨_, hstep, _, ih.mpr ⟨by simpa using hlength, hsteps⟩, rfl⟩

/-- A run of one step that takes its first scale. -/
lemma iterate_one_of_trial {d x' : Grid α} {error error' : σ} (hx : x.shape = ⟨p.parameters, 1⟩)
    (herror : p.errorAt x = .ok error) (hd : p.direction s.damping x = .ok d)
    (hle : s.floor ≤ s.start) (htrial : trial p x d s.start = .ok (x', error'))
    (hlt : error' < error) : s.iterate p x 1 = .ok [⟨x', error, error', some s.start, 1⟩] := by
  obtain ⟨hmoved, herror'⟩ := trial_eq_ok_iff.mp htrial
  have hsearched : Searched s p x d error _ :=
    .accepted (k := 0) (fun i hi => absurd hi i.not_lt_zero) hle hmoved herror' hlt
  exact iterate_eq_ok_iff.mpr
    ⟨rfl, .cons (step_eq_ok_iff.mpr ⟨hx, error, d, herror, hd, hsearched⟩) .nil⟩

/-- A run of `n + m` steps is a run of `n` steps, then one of `m` steps from its last point. -/
theorem iterate_add :
    s.iterate p x (n + m) =
      (do
        let os ← s.iterate p x n
        let os' ← s.iterate p (Outcome.lastPoint x os) m
        pure (os ++ os')) := by
  induction n generalizing x with
  | zero =>
    cases h : s.iterate p x m <;> simp [h]
  | succ n ih =>
    -- `n` is the length of the first part, so that the first step belongs to it
    rw [Nat.succ_add, iterate_succ, iterate_succ]
    cases s.step p x with
    | error e => rfl
    | ok r =>
      simp only [ok_bind, ih]
      cases s.iterate p r.outcome.x n with
      | error e => rfl
      | ok os =>
        simp only [ok_bind, pure_eq_ok, Outcome.lastPoint_cons]
        cases s.iterate p (Outcome.lastPoint r.outcome.x os) m <;> rfl

/-- A run fails with the error of its first step that fails. -/
theorem iterate_eq_error_iff {e : SolveError} : s.iterate p x n = .error e ↔
    ∃ k < n, ∃ os, s.iterate p x k = .ok os ∧ s.step p (Outcome.lastPoint x os) = .error e := by
  constructor
  · intro h
    induction n generalizing x with
    | zero => simp at h
    | succ n ih =>
      simp only [iterate_succ, bind_eq_error_iff, pure_eq_ok, reduceCtorEq, and_false, exists_false,
        or_false] at h
      rcases h with hstep | ⟨r, hstep, hrest⟩
      · exact ⟨0, n.succ_pos, [], rfl, hstep⟩
      · obtain ⟨k, hk, os, hos, he⟩ := ih hrest
        exact ⟨k + 1, Nat.succ_lt_succ hk, r.outcome :: os, by simp [iterate_succ, hstep, hos],
          by simpa using he⟩
  · rintro ⟨k, hk, os, hos, he⟩
    obtain ⟨m, rfl⟩ : ∃ m, n = k + (m + 1) := ⟨n - k - 1, by omega⟩
    simp [iterate_add, hos, iterate_succ, he]

/-! ### The chain of errors -/

/-- How errors and points develop along a run from `x`. -/
structure Descends (p : Problem α) (x : Grid α) (os : List (Outcome σ α)) : Prop where
  /-- The first error is the one at `x`. -/
  starts : ∀ o ∈ os.head?, p.errorAt x = .ok o.errorBefore
  /-- Each step starts at the error that the one before it ended at. -/
  linked : os.IsChain fun o o' => o'.errorBefore = o.errorAfter
  decreases : ∀ o ∈ os, o.accepted = true → o.errorAfter < o.errorBefore
  stays : ∀ i (h : i < os.length), os[i].accepted = false →
    os[i].x = Outcome.lastPoint x (os.take i) ∧ os[i].errorAfter = os[i].errorBefore
  /-- A step that stays is repeated from then on. -/
  absorbing : os.Pairwise fun o o' => o.accepted = false → o' = o
  /-- No step moves to a point where the run has been. -/
  fresh : (x :: (os.filter Outcome.accepted).map Outcome.x).Nodup

namespace Steps

lemma errorAt_of_head (h : s.Steps p x os) : ∀ o ∈ os.head?, p.errorAt x = .ok o.errorBefore := by
  cases h with
  | nil => simp
  | cons hstep hsteps => simpa using (errorAt_of_step hstep).1

/-- All points of a run have the shape of its start. -/
lemma shape_eq (h : s.Steps p x os) : ∀ o ∈ os, o.x.shape = x.shape := by
  induction h with
  | nil => simp
  | @cons x r os hstep hsteps ih =>
    rw [shape_of_step hstep] at ih
    exact List.forall_mem_cons.mpr ⟨shape_of_step hstep, ih⟩

lemma isChain (h : s.Steps p x os) : os.IsChain fun o o' => o'.errorBefore = o.errorAfter := by
  induction h with
  | nil => exact .nil
  | @cons x r os hstep hsteps ih =>
    refine List.isChain_cons.mpr ⟨fun o ho => ?_, ih⟩
    have hbefore := hsteps.errorAt_of_head o ho
    have hafter := (errorAt_of_step hstep).2
    exact Except.ok.inj (hbefore.symm.trans hafter)

/-- Each step starts where the ones before it ended. -/
lemma step_at (h : s.Steps p x os) {i : ℕ} (hi : i < os.length) :
    ∃ r, s.step p (Outcome.lastPoint x (os.take i)) = .ok r ∧ r.outcome = os[i] := by
  induction h generalizing i with
  | nil => simp at hi
  | @cons x r os hstep hsteps ih =>
    cases i with
    | zero => exact ⟨r, hstep, rfl⟩
    | succ i => simpa using ih (by simpa using hi)

/-- From a point where a step stays, all steps are that step. -/
lemma eq_of_rejected (h : s.Steps p x os) (hstep : s.step p x = .ok r)
    (hrejected : r.outcome.accepted = false) : ∀ o ∈ os, o = r.outcome := by
  induction h with
  | nil => simp
  | @cons x r' os hstep' hsteps ih =>
    obtain rfl : r' = r := Except.ok.inj (hstep'.symm.trans hstep)
    obtain ⟨hx, -⟩ := stays_of_step hstep hrejected
    rw [hx] at ih
    exact List.forall_mem_cons.mpr ⟨rfl, ih hstep⟩

lemma pairwise (h : s.Steps p x os) :
    os.Pairwise fun o o' => o.accepted = false → o' = o := by
  induction h with
  | nil => exact .nil
  | @cons x r os hstep hsteps ih =>
    refine List.pairwise_cons.mpr ⟨fun o ho hrejected => ?_, ih⟩
    obtain ⟨hx, -⟩ := stays_of_step hstep hrejected
    rw [hx] at hsteps
    exact hsteps.eq_of_rejected hstep hrejected o ho

variable [OrderedErrors σ α]

/-- Every step that moves ends below the error at which the run started. -/
lemma lt_of_accepted {e : σ} (h : s.Steps p x os) (hx : p.errorAt x = .ok e) :
    ∀ o ∈ os, o.accepted = true →
      p.errorAt o.x = .ok o.errorAfter ∧ o.errorAfter < e := by
  induction h generalizing e with
  | nil => simp
  | @cons x r os hstep hsteps ih =>
    obtain ⟨hbefore, hafter⟩ := errorAt_of_step hstep
    obtain rfl : r.outcome.errorBefore = e := Except.ok.inj (hbefore.symm.trans hx)
    refine List.forall_mem_cons.mpr
      ⟨fun haccepted => ⟨hafter, decreases_of_step hstep haccepted⟩, fun o ho haccepted => ?_⟩
    obtain ⟨ho, hlt⟩ := ih hafter o ho haccepted
    cases hr : r.outcome.accepted with
    | true =>
      exact ⟨ho, Problem.errorAt_lt_trans ho hafter hbefore hlt (decreases_of_step hstep hr)⟩
    | false =>
      rw [(stays_of_step hstep hr).2] at hlt
      exact ⟨ho, hlt⟩

lemma x_ne_of_accepted {e : σ} (h : s.Steps p x os) (hx : p.errorAt x = .ok e) {o : Outcome σ α}
    (ho : o ∈ os) (haccepted : o.accepted = true) : o.x ≠ x := by
  rintro rfl
  obtain ⟨herror, hlt⟩ := h.lt_of_accepted hx o ho haccepted
  rw [Except.ok.inj (herror.symm.trans hx)] at hlt
  exact Problem.errorAt_lt_irrefl hx hlt

lemma nodup (h : s.Steps p x os) : (x :: (os.filter Outcome.accepted).map Outcome.x).Nodup := by
  induction h with
  | nil => simp
  | @cons x r os hstep hsteps ih =>
    cases hr : r.outcome.accepted with
    | false =>
      rw [List.filter_cons_of_neg (by simp [hr]), ← (stays_of_step hstep hr).1]
      exact ih
    | true =>
      refine List.nodup_cons.mpr ⟨fun hmem => ?_, by simpa [hr] using ih⟩
      obtain ⟨o, ho, hox⟩ := List.mem_map.mp hmem
      obtain ⟨ho, haccepted⟩ := List.mem_filter.mp ho
      exact (cons hstep hsteps).x_ne_of_accepted (errorAt_of_step hstep).1 ho haccepted hox

theorem descends (h : s.Steps p x os) : Descends p x os where
  starts := h.errorAt_of_head
  linked := h.isChain
  decreases o ho haccepted := by
    obtain ⟨i, hi, rfl⟩ := List.getElem_of_mem ho
    obtain ⟨r, hstep, hr⟩ := h.step_at hi
    rw [← hr] at haccepted ⊢
    exact decreases_of_step hstep haccepted
  stays i hi hrejected := by
    obtain ⟨r, hstep, hr⟩ := h.step_at hi
    rw [← hr] at hrejected ⊢
    exact stays_of_step hstep hrejected
  absorbing := h.pairwise
  fresh := h.nodup

end Steps

/-- A run of a descent on single precision entries, whatever inverts matrices. It has as many
outcomes as steps, its errors go down by every step that moves, and it ends in repetition once a
step stays. It fails with the error of the first step that fails, and it may be cut anywhere. -/
theorem iterate_descends [Inverter Float32] (s : Descent Quantity) (p : Problem Float32)
    (x : Grid Float32) (n : ℕ) :
    (∀ os, s.iterate p x n = .ok os → os.length = n ∧ Descends p x os) ∧
      (∀ e, s.iterate p x n = .error e ↔ ∃ k < n, ∃ os, s.iterate p x k = .ok os ∧
        s.step p (Outcome.lastPoint x os) = .error e) ∧
      ∀ m, s.iterate p x (n + m) =
        (do
          let os ← s.iterate p x n
          let os' ← s.iterate p (Outcome.lastPoint x os) m
          pure (os ++ os')) := by
  refine ⟨fun os hos => ?_, fun e => iterate_eq_error_iff, fun m => iterate_add⟩
  obtain ⟨hlength, hsteps⟩ := iterate_eq_ok_iff.mp hos
  exact ⟨hlength, hsteps.descends⟩

/-- The problem with the residual `x - 1` in one parameter. -/
def distanceToOne : Problem Float32 where
  equations := 1
  parameters := 1
  residual x := checked (x.sub (.ofColumn [1]))
  jacobian _ := .ok (.ofColumn [1])

/-- The descent without damping that tries full steps only. -/
def fullSteps : Descent Quantity where
  damping := .whole 0
  start := .whole 1
  shrink := .real 0.5
  floor := .real 0.75
  not_damping_neg := by decide +kernel
  shrink_pos := by decide +kernel
  shrink_lt_one := by decide +kernel
  floor_pos := by decide +kernel
  floor_lt_start := by decide +kernel

/-- From `3` one step leads to the solution, and the next one stays there. -/
theorem iterate_descends_full_steps :
    ∃ os, fullSteps.iterate distanceToOne (.ofColumn [3]) 2 = .ok os ∧
      os.map Outcome.accepted = [true, false] ∧ Descends distanceToOne (.ofColumn [3]) os := by
  have hmoves : fullSteps.step distanceToOne (.ofColumn [3]) =
      .ok ⟨⟨.ofColumn [1], .real 4, .real 0, some (.whole 1), 1⟩,
        [.accepted (.whole 1) 1 (.real 4) (.real 0)]⟩ := by
    refine step_eq_ok_iff.mpr
      ⟨rfl, .real 4, .ofColumn [-2], by decide +kernel, by decide +kernel, ?_⟩
    exact .accepted (k := 0) (by simp [FailsUpTo]) (by decide +kernel)
      ⟨1, by decide +kernel, by decide +kernel⟩ (by decide +kernel) (by decide +kernel)
  have hstays : fullSteps.step distanceToOne (.ofColumn [1]) =
      .ok ⟨⟨.ofColumn [1], .real 0, .real 0, none, 1⟩, [.solved]⟩ := by
    refine step_eq_ok_iff.mpr
      ⟨rfl, .real 0, .ofColumn [-0], by decide +kernel, by decide +kernel, ?_⟩
    have hfails : TrialFails distanceToOne (.ofColumn [1]) (.ofColumn [-0]) (.real 0)
        (fullSteps.scaleAt 0) :=
      ⟨.ofColumn [1], .real 0, ⟨1, by decide +kernel, by decide +kernel⟩, by decide +kernel,
        by decide +kernel⟩
    exact .exhausted (k := 1) (FailsUpTo.succ (by simp [FailsUpTo]) (by decide +kernel) hfails)
      (by decide +kernel)
  have hrun := iterate_eq_ok_iff.mpr ⟨rfl, .cons hmoves (.cons hstays .nil)⟩
  obtain ⟨hdescends, -, -⟩ := iterate_descends fullSteps distanceToOne (.ofColumn [3]) 2
  exact ⟨_, hrun, rfl, (hdescends _ hrun).2⟩

end Descent

end Workforce
