import Mathlib.Order.RelClasses
import Workforce.Number.Order

/-!
# Peaks

The peak of a list is one of its numbers or zero. It compares exactly if all of them do, and then
none of them is greater. This needs no more than an order that is irreflexive and transitive.
-/

namespace Workforce

variable {α : Type} [LT α] [DecidableLT α] {as : List α} {m a x : α}

lemma larger_cases (m a : α) : larger m a = m ∨ larger m a = a := by
  rw [larger]
  split_ifs
  · exact .inr rfl
  · exact .inl rfl

lemma not_larger_lt [IsStrictOrder α (· < ·)] (h : ¬ m < x ∨ x = a) : ¬ larger m a < x := by
  by_cases hlt : m < a
  · rw [larger_of_lt hlt]
    obtain h | rfl := h
    · exact fun hax => h (trans_of (· < ·) hlt hax)
    · exact irrefl x
  · rw [larger_of_not_lt hlt]
    obtain h | rfl := h
    · exact h
    · exact hlt

variable [BEq α]

/-- The greater of two numbers, or the first one that does not compare. -/
def rankedHigher (m a : α) : α :=
  if !isProper m then m else if !isProper a then a else larger m a

lemma peak_eq_foldl [Zero α] (as : List α) : peak as = as.foldl rankedHigher 0 := rfl

lemma rankedHigher_cases (m a : α) : rankedHigher m a = m ∨ rankedHigher m a = a := by
  rw [rankedHigher]
  split_ifs
  · exact .inl rfl
  · exact .inr rfl
  · exact larger_cases m a

lemma rankedHigher_of_isProper (hm : isProper m = true) (ha : isProper a = true) :
    rankedHigher m a = larger m a := by
  rw [rankedHigher, hm, ha]
  rfl

lemma isProper_rankedHigher (m a : α) :
    isProper (rankedHigher m a) = (isProper m && isProper a) := by
  cases hm : isProper m with
  | false => rw [rankedHigher, hm]; exact hm
  | true =>
    cases ha : isProper a with
    | false => rw [rankedHigher, hm, ha]; exact ha
    | true =>
      rw [rankedHigher_of_isProper hm ha]
      obtain h | h := larger_cases m a <;> rw [h]
      · exact hm
      · exact ha

lemma foldl_rankedHigher_mem (as : List α) (m : α) : as.foldl rankedHigher m ∈ m :: as := by
  induction as generalizing m with
  | nil => exact List.mem_singleton_self m
  | cons a as ih =>
    rw [List.foldl_cons]
    have hstep := ih (rankedHigher m a)
    rw [List.mem_cons] at hstep ⊢
    obtain heq | hmem := hstep
    · rw [heq, List.mem_cons]
      exact (rankedHigher_cases m a).imp_right .inl
    · exact .inr (List.mem_cons_of_mem a hmem)

lemma isProper_foldl_rankedHigher (as : List α) (m : α) :
    isProper (as.foldl rankedHigher m) = (isProper m && as.all isProper) := by
  induction as generalizing m with
  | nil => simp
  | cons a as ih => rw [List.foldl_cons, ih, isProper_rankedHigher, List.all_cons, Bool.and_assoc]

/-- No number is greater than what a fold over numbers that compare has seen. -/
lemma not_foldl_rankedHigher_lt [IsStrictOrder α (· < ·)] (hm : isProper m = true)
    (has : ∀ a ∈ as, isProper a = true) (h : ¬ m < x ∨ x ∈ as) : ¬ as.foldl rankedHigher m < x := by
  induction as generalizing m with
  | nil => exact h.resolve_right List.not_mem_nil
  | cons a as ih =>
    have ha := has a List.mem_cons_self
    have hstep : isProper (rankedHigher m a) = true := by
      rw [isProper_rankedHigher, hm, ha]
      rfl
    rw [List.foldl_cons]
    refine ih hstep (fun b hb => has b (List.mem_cons_of_mem a hb)) ?_
    rw [rankedHigher_of_isProper hm ha]
    rw [List.mem_cons] at h
    obtain h | rfl | h := h
    · exact .inl (not_larger_lt (.inl h))
    · exact .inl (not_larger_lt (.inr rfl))
    · exact .inr h

/-! ### Peaks of lists -/

variable [Zero α]

lemma peak_mem (as : List α) : peak as ∈ 0 :: as := foldl_rankedHigher_mem as 0

lemma isProper_peak_iff (hzero : isProper (0 : α) = true) :
    isProper (peak as) = true ↔ ∀ a ∈ as, isProper a = true := by
  rw [peak_eq_foldl, isProper_foldl_rankedHigher, hzero, Bool.true_and, List.all_eq_true]

lemma not_peak_lt [IsStrictOrder α (· < ·)] (hzero : isProper (0 : α) = true)
    (has : ∀ a ∈ as, isProper a = true) (ha : a ∈ as) : ¬ peak as < a :=
  not_foldl_rankedHigher_lt hzero has (.inr ha)

end Workforce
