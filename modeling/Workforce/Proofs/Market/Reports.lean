import Mathlib

/-!
# Reports of ticks in a row

Ticks follow each other until one fails. What every tick keeps holds along the run, what any two
ticks in a row have in common relates neighbouring reports, and two runs whose ticks cannot be told
apart have the same reports and the same end.
-/

namespace Workforce

variable {S S' R E : Type}

/-- The reports of at most `n` ticks in a row, and the error of the tick that fails, if one does. -/
def reportsFrom (tick : S → S × Except E R) : S → ℕ → List R × Option E
  | _, 0 => ([], none)
  | s, n + 1 =>
    match tick s with
    | (_, .error e) => ([], some e)
    | (s', .ok r) => (r :: (reportsFrom tick s' n).1, (reportsFrom tick s' n).2)

variable {tick : S → S × Except E R} {tick' : S' → S' × Except E R} {s s' : S} {r : R} {e : E}

lemma tick_cases (tick : S → S × Except E R) (s : S) :
    (∃ e, (tick s).2 = .error e) ∨ ∃ s' r, tick s = (s', .ok r) := by
  cases hr : (tick s).2 with
  | error e => exact .inl ⟨e, rfl⟩
  | ok r => exact .inr ⟨(tick s).1, r, Prod.ext rfl hr⟩

lemma reportsFrom_of_error (h : (tick s).2 = .error e) (n : ℕ) :
    reportsFrom tick s (n + 1) = ([], some e) := by
  have ht : tick s = ((tick s).1, .error e) := Prod.ext rfl h
  rw [reportsFrom, ht]

lemma reportsFrom_of_ok (h : tick s = (s', .ok r)) (n : ℕ) :
    reportsFrom tick s (n + 1) = (r :: (reportsFrom tick s' n).1, (reportsFrom tick s' n).2) := by
  rw [reportsFrom, h]

/-- What every tick keeps holds along a run, and what every tick then reports is in all reports. -/
lemma forall_mem_reportsFrom {I : S → Prop} {P : R → Prop}
    (htick : ∀ s s' r, I s → tick s = (s', .ok r) → I s' ∧ P r) (hs : I s) (n : ℕ) :
    ∀ r ∈ (reportsFrom tick s n).1, P r := by
  induction n generalizing s with
  | zero => exact fun r hr => absurd hr List.not_mem_nil
  | succ n ih =>
    obtain ⟨e, he⟩ | ⟨s', r, ht⟩ := tick_cases tick s
    · rw [reportsFrom_of_error he]
      exact fun r hr => absurd hr List.not_mem_nil
    · obtain ⟨hs', hr⟩ := htick s s' r hs ht
      rw [reportsFrom_of_ok ht]
      exact List.forall_mem_cons.mpr ⟨hr, ih hs'⟩

/-- A run of ticks that only fail in some way either does so, or completes all of them. -/
lemma reportsFrom_cases {I : S → Prop} {F : E → Prop}
    (herror : ∀ s e, I s → (tick s).2 = .error e → F e)
    (hok : ∀ s s' r, I s → tick s = (s', .ok r) → I s') (hs : I s) (n : ℕ) :
    (∃ e, (reportsFrom tick s n).2 = some e ∧ F e) ∨
      (reportsFrom tick s n).2 = none ∧ (reportsFrom tick s n).1.length = n := by
  induction n generalizing s with
  | zero => exact .inr ⟨rfl, rfl⟩
  | succ n ih =>
    obtain ⟨e, he⟩ | ⟨s', r, ht⟩ := tick_cases tick s
    · rw [reportsFrom_of_error he]
      exact .inl ⟨e, rfl, herror s e hs he⟩
    · rw [reportsFrom_of_ok ht, List.length_cons, Nat.succ_inj]
      exact ih (hok s s' r hs ht)

/-- What any two ticks in a row have in common relates neighbouring reports. -/
lemma isChain_reportsFrom {C : R → R → Prop}
    (hticks : ∀ s s' s'' r r', tick s = (s', .ok r) → tick s' = (s'', .ok r') → C r r') (s : S)
    (n : ℕ) : (reportsFrom tick s n).1.IsChain C := by
  induction n generalizing s with
  | zero => exact List.isChain_nil
  | succ n ih =>
    obtain ⟨e, he⟩ | ⟨s', r, ht⟩ := tick_cases tick s
    · rw [reportsFrom_of_error he]
      exact List.isChain_nil
    · rw [reportsFrom_of_ok ht]
      refine List.isChain_cons.mpr ⟨fun r' hr' => ?_, ih s'⟩
      -- the neighbour is the report of the next tick, if that is run and succeeds
      cases n with
      | zero => simp [reportsFrom] at hr'
      | succ n =>
        obtain ⟨e, he⟩ | ⟨s'', r'', ht'⟩ := tick_cases tick s'
        · simp [reportsFrom_of_error he] at hr'
        · obtain rfl : r'' = r' := by simpa [reportsFrom_of_ok ht'] using hr'
          exact hticks s s' s'' r r'' ht ht'

/-- Runs from two states have the same reports and the same end if ticks answer them alike and
keep them so. -/
lemma reportsFrom_congr (Same : S → S' → Prop)
    (htick : ∀ s s', Same s s' → (tick s).2 = (tick' s').2 ∧
      ∀ r, (tick s).2 = .ok r → Same (tick s).1 (tick' s').1)
    {s : S} {s' : S'} (hs : Same s s') (n : ℕ) : reportsFrom tick s n = reportsFrom tick' s' n := by
  induction n generalizing s s' with
  | zero => rfl
  | succ n ih =>
    obtain ⟨hanswer, hnext⟩ := htick s s' hs
    cases hr : (tick s).2 with
    | error e => rw [reportsFrom_of_error hr, reportsFrom_of_error (hanswer ▸ hr)]
    | ok r =>
      have ht : tick s = ((tick s).1, .ok r) := Prod.ext rfl hr
      have ht' : tick' s' = ((tick' s').1, .ok r) := Prod.ext rfl (hanswer ▸ hr)
      rw [reportsFrom_of_ok ht, reportsFrom_of_ok ht', ih (hnext r hr)]

end Workforce
