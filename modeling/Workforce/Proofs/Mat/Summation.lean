import Workforce.Proofs.Mat.Matrix

/-!
# Orders of summation

Addition of floating point numbers is not associative, so a sum depends on the order in which it is
taken. `AddsUp` relates a list of terms to every number that they add up to in some order and
grouping. Products in particular can be rounded on their own, or together with the sum that they are
added to. What holds of a sum because of its terms alone holds in every order.
-/

namespace Workforce

variable {ι α : Type} [Zero α] [Add α]

/-- The numbers that some terms add up to, in any order and grouping: `term i` is the term by
itself, and `into i s` is what adding it to `s` in one operation gives. -/
inductive AddsUp (term : ι → α) (into : ι → α → α) : List ι → α → Prop where
  | nil : AddsUp term into [] 0
  | term (i : ι) : AddsUp term into [i] (term i)
  | into {is : List ι} {s : α} (i : ι) (h : AddsUp term into is s) :
      AddsUp term into (i :: is) (into i s)
  | add {is js : List ι} {s t : α} (hs : AddsUp term into is s) (ht : AddsUp term into js t) :
      AddsUp term into (is ++ js) (s + t)
  | perm {is js : List ι} {s : α} (h : AddsUp term into is s) (hperm : is.Perm js) :
      AddsUp term into js s

namespace AddsUp

variable {term : ι → α} {into : ι → α → α} {is : List ι} {s : α} {P : α → Prop} {Q : ι → Prop}

/-- What sums pass on to both operands, they pass on to all terms. -/
lemma forall_mem (hadd : ∀ a b, P (a + b) → P a ∧ P b) (hterm : ∀ i, P (term i) → Q i)
    (hinto : ∀ i a, P (into i a) → Q i ∧ P a) (h : AddsUp term into is s) (hs : P s) :
    ∀ i ∈ is, Q i := by
  induction h with
  | nil => simp
  | term i => simpa using hterm i hs
  | into i h ih =>
    obtain ⟨hi, ha⟩ := hinto _ _ hs
    exact List.forall_mem_cons.mpr ⟨hi, ih ha⟩
  | add h h' ih ih' =>
    obtain ⟨ha, hb⟩ := hadd _ _ hs
    exact List.forall_mem_append.mpr ⟨ih ha, ih' hb⟩
  | perm h hperm ih => exact fun i hi => ih hs i (hperm.mem_iff.mpr hi)

/-- What zero has and sums keep, a sum has if all terms do. -/
lemma of_forall_mem (hzero : P 0) (hadd : ∀ a b, P a → P b → P (a + b))
    (hterm : ∀ i, Q i → P (term i)) (hinto : ∀ i a, Q i → P a → P (into i a))
    (h : AddsUp term into is s) (his : ∀ i ∈ is, Q i) : P s := by
  induction h with
  | nil => exact hzero
  | term i => exact hterm i (his i (List.mem_singleton_self i))
  | into i h ih =>
    obtain ⟨hi, his⟩ := List.forall_mem_cons.mp his
    exact hinto _ _ hi (ih his)
  | add h h' ih ih' =>
    obtain ⟨his, hjs⟩ := List.forall_mem_append.mp his
    exact hadd _ _ (ih his) (ih' hjs)
  | perm h hperm ih => exact ih fun i hi => his i (hperm.mem_iff.mp hi)

/-- If all terms have a property `N` that sums keep, and sums of such numbers have `P` exactly if
both operands do, then they have `P` exactly if all terms do. -/
lemma iff_forall_mem {N : α → Prop} {as : List α} (hzero : N 0 ∧ P 0)
    (hadd : ∀ a b, N a → N b → N (a + b) ∧ (P (a + b) ↔ P a ∧ P b))
    (h : AddsUp id (· + ·) as s) (has : ∀ a ∈ as, N a) : N s ∧ (P s ↔ ∀ a ∈ as, P a) := by
  induction h with
  | nil => simp [hzero]
  | term a => simpa using has
  | into a h ih =>
    obtain ⟨ha, has⟩ := List.forall_mem_cons.mp has
    obtain ⟨hs, hiff⟩ := ih has
    obtain ⟨hsum, hsum'⟩ := hadd _ _ ha hs
    exact ⟨hsum, by rw [hsum', hiff, List.forall_mem_cons]⟩
  | add h h' ih ih' =>
    obtain ⟨has, hbs⟩ := List.forall_mem_append.mp has
    obtain ⟨hs, hiff⟩ := ih has
    obtain ⟨ht, hiff'⟩ := ih' hbs
    obtain ⟨hsum, hsum'⟩ := hadd _ _ hs ht
    exact ⟨hsum, by rw [hsum', hiff, hiff', List.forall_mem_append]⟩
  | perm h hperm ih =>
    simp only [← hperm.mem_iff] at has ⊢
    exact ih has

/-- A sum goes on from left to right. -/
lemma foldl {js : List ι} (h : AddsUp term into js s) (is : List ι) :
    AddsUp term into (js ++ is) (is.foldl (fun s i => s + term i) s) := by
  induction is generalizing js s with
  | nil => simpa using h
  | cons i is ih => simpa using ih (h.add (.term i))

end AddsUp

/-! ### The orders that are used -/

/-- From left to right is one of the orders. -/
lemma addsUp_sumFin {n : ℕ} (term : ι → α) (into : ι → α → α) (i : Fin n → ι) :
    AddsUp term into ((List.finRange n).map i) (sumFin n fun l => term (i l)) := by
  have h := (AddsUp.nil : AddsUp term into [] 0).foldl ((List.finRange n).map i)
  rwa [List.foldl_map] at h

section Interleaved

variable {into : α → α → α} {l₀ l₁ l₂ l₃ l₄ l₅ l₆ l₇ : List α} {s₀ s₁ s₂ s₃ s₄ s₅ s₆ s₇ : α}

lemma addsUp_sumEights (h₀ : AddsUp id into l₀ s₀) (h₁ : AddsUp id into l₁ s₁)
    (h₂ : AddsUp id into l₂ s₂) (h₃ : AddsUp id into l₃ s₃) (h₄ : AddsUp id into l₄ s₄)
    (h₅ : AddsUp id into l₅ s₅) (h₆ : AddsUp id into l₆ s₆) (h₇ : AddsUp id into l₇ s₇)
    (as : List α) : AddsUp id into (l₀ ++ l₁ ++ l₂ ++ l₃ ++ l₄ ++ l₅ ++ l₆ ++ l₇ ++ as)
      (sumEights s₀ s₁ s₂ s₃ s₄ s₅ s₆ s₇ as) := by
  fun_induction sumEights generalizing l₀ l₁ l₂ l₃ l₄ l₅ l₆ l₇ with
  | case1 s₀ s₁ s₂ s₃ s₄ s₅ s₆ s₇ a₀ a₁ a₂ a₃ a₄ a₅ a₆ a₇ rest ih =>
    refine (ih (h₀.add (.term a₀)) (h₁.add (.term a₁)) (h₂.add (.term a₂)) (h₃.add (.term a₃))
      (h₄.add (.term a₄)) (h₅.add (.term a₅)) (h₆.add (.term a₆)) (h₇.add (.term a₇))).perm ?_
    classical
    rw [List.perm_iff_count]
    intro a
    simp only [List.count_append, List.count_cons, List.count_nil]
    omega
  | case2 s₀ s₁ s₂ s₃ s₄ s₅ s₆ s₇ rest hshort =>
    simpa using ((((h₀.add h₁).add (h₂.add h₃)).add ((h₄.add h₅).add (h₆.add h₇))).foldl rest)

/-- The order of a squared norm is one of the orders. -/
lemma addsUp_sumPairwise (into : α → α → α) (as : List α) :
    AddsUp id into as (sumPairwise as) := by
  fun_induction sumPairwise as with
  | case1 as hshort =>
    fun_cases sumBlock as with
    | case1 a₀ a₁ a₂ a₃ a₄ a₅ a₆ a₇ rest =>
      exact addsUp_sumEights (.term a₀) (.term a₁) (.term a₂) (.term a₃) (.term a₄) (.term a₅)
        (.term a₆) (.term a₇) rest
    | case2 => exact AddsUp.nil.foldl as
  | case2 as hlong half ih₁ ih₂ => simpa using ih₁.add ih₂

end Interleaved

end Workforce
