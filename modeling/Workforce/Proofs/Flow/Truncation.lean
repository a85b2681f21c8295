import Workforce.Proofs.Flow.Trace
import Workforce.Proofs.Number.RoundedArithmetic

/-!
# Truncation of the flow

More levels of feedback only make more additions: those of the first levels stay as they are, in
their order, with the others between them. So an entry of the flow inverse is a sum over some of the
terms of the same entry at a greater depth. No term is negative unless it is undefined, and rounded
sums of such terms grow with them, although they depend on the order.
-/

namespace Workforce

variable {α ι : Type} {m n : ℕ}

/-! ### Sums of some of the terms -/

section Sums

variable [Zero α] [One α] [Add α] [Mul α] [Div α] [Neg α] [LT α] [LE α] [BEq α]
variable [RoundedArithmetic α]

open RoundedArithmetic

/-- Leaving out terms that are not negative does not increase a sum. -/
lemma foldl_add_le_foldl_add {is js : List ι} (h : is.Sublist js) {term : ι → α}
    (hterm : ∀ j ∈ js, 0 ≤ term j) {s t : α} (hs : 0 ≤ s) (hst : s ≤ t) :
    0 ≤ is.foldl (fun s i => s + term i) s ∧
      is.foldl (fun s i => s + term i) s ≤ js.foldl (fun s i => s + term i) t := by
  induction h generalizing s t with
  | slnil => exact ⟨hs, hst⟩
  | cons j h ih =>
    obtain ⟨hj, hrest⟩ := List.forall_mem_cons.mp hterm
    have ht := le_trans zero_le_zero hs hst
    exact ih hrest hs (le_trans hs hst (le_add ht hj))
  | cons_cons j h ih =>
    obtain ⟨hj, hrest⟩ := List.forall_mem_cons.mp hterm
    exact ih hrest (zero_le_add hs hj) (add_le_add_right hs hst hj)

lemma Flow.zero_le_positiveSum [DecidableLT α] (as : List α) : 0 ≤ positiveSum as := by
  refine (addsUp_positiveSum as).of_forall_mem (Q := fun a => 0 < a) zero_le_zero
    (fun _ _ => zero_le_add) (fun _ => zero_le_of_pos)
    (fun _ _ ha => zero_le_add (zero_le_of_pos ha)) ?_
  simp

end Sums

namespace Flow

variable [Zero α] [One α] [Add α] [Mul α] [Div α] [Neg α] [LT α] [LE α] [DecidableLT α]
variable [DecidableLE α]

section Definedness

variable [BEq α]

/-- Nothing that flows for `levels` levels is undefined. -/
def IsDefined (A : Mat α m n) (levels : ℕ) : Prop :=
  ∀ r, ∀ a ∈ trace A levels 0 r 1, isProper a.flow = true ∧ isProper a.share = true

instance (A : Mat α m n) (levels : ℕ) : Decidable (IsDefined A levels) :=
  inferInstanceAs (Decidable
    (∀ r, ∀ a ∈ trace A levels 0 r 1, isProper a.flow = true ∧ isProper a.share = true))

variable [RoundedArithmetic α] {A : Mat α m n} {levels : ℕ}

open RoundedArithmetic

/-- No column receives a negative share, because no negative flow enters a row. -/
lemma IsDefined.zero_le_share (h : IsDefined A levels) (r : Fin m) :
    ∀ a ∈ trace A levels 0 r 1, 0 ≤ a.share := by
  have hshare : ∀ a ∈ trace A levels 0 r 1, (isProper a.flow = true → 0 ≤ a.flow) →
      0 ≤ a.share := by
    intro a ha hflow
    obtain ⟨htotal, -, hshare⟩ := isMadeIn_of_mem_trace ha
    obtain ⟨hproper, hproper'⟩ := h r a ha
    rw [hshare] at hproper' ⊢
    exact zero_le_div (hflow hproper) (zero_le_positiveSum _) htotal hproper'
  intro a ha
  refine hshare a ha (forall_mem_trace (P := fun _ _ f => isProper f = true → 0 ≤ f) ?_ ?_ a ha).1
  · exact fun _ => zero_le_one
  · intro b hb hflow q hq hproper
    exact zero_le_mul (zero_le_neg hq) (hshare b hb hflow) hproper

end Definedness

/-- The flow makes the additions that `trace` lists, and an entry of the flow inverse sums up those
that are made to it. With fewer levels these are the additions of the first levels, in the same
order and with the same shares. In rounded arithmetic the entries do not decrease with the number of
levels, as long as nothing is undefined. -/
theorem flowInverse_deepens (A : Mat α m n) {d e : ℕ} (h : d ≤ e) :
    (∀ levels r, (trace A levels 0 r 1).map (fun a => (a.column, a.share)) =
      additions A levels r 1) ∧
    (∀ levels c r, (A.flowInverse levels).get c r =
      (additionsTo A levels c r).foldl (fun s a => s + a.share) 0) ∧
    (∀ c r, additionsTo A d c r = (additionsTo A e c r).filter fun a => a.level ≤ d) ∧
    ∀ [BEq α] [RoundedArithmetic α], IsDefined A e → ∀ c r,
      0 ≤ (A.flowInverse d).get c r ∧ (A.flowInverse d).get c r ≤ (A.flowInverse e).get c r := by
  have hadditions : ∀ c r, additionsTo A d c r =
      (additionsTo A e c r).filter fun a => a.level ≤ d := by
    intro c r
    rw [additionsTo, additionsTo, ← filter_trace h, List.filter_comm]
    simp
  refine ⟨fun levels r => map_trace A levels 0 r 1, get_flowInverse_eq_foldl A, hadditions, ?_⟩
  intro _ _ hdefined c r
  -- leaving out additions that are not negative cannot increase a rounded sum
  have hterm : ∀ a ∈ additionsTo A e c r, 0 ≤ a.share := fun a ha =>
    hdefined.zero_le_share r a (List.mem_of_mem_filter ha)
  rw [get_flowInverse_eq_foldl, get_flowInverse_eq_foldl, hadditions]
  exact foldl_add_le_foldl_add List.filter_sublist hterm RoundedArithmetic.zero_le_zero
    RoundedArithmetic.zero_le_zero

/-- Two rows that take from each other. -/
def exchange : Mat Float32 2 2 := ⟨#v[#v[1, -0.3], #v[-0.7, 1]]⟩

/-- Nothing is undefined on the way around, so two more levels decrease no entry. -/
theorem flowInverse_deepens_exchange :
    (0 ≤ (exchange.flowInverse 1).get 0 0 ∧
      (exchange.flowInverse 1).get 0 0 ≤ (exchange.flowInverse 3).get 0 0) ∧
    0 ≤ (exchange.flowInverse 1).get 1 0 ∧
      (exchange.flowInverse 1).get 1 0 ≤ (exchange.flowInverse 3).get 1 0 := by
  have hdefined : IsDefined exchange 3 := by decide +kernel
  obtain ⟨-, -, -, hgrows⟩ := flowInverse_deepens exchange (d := 1) (e := 3) (by decide)
  exact ⟨hgrows hdefined 0 0, hgrows hdefined 1 0⟩

end Flow

end Workforce
