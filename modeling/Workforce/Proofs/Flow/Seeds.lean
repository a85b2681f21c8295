import Workforce.Proofs.Flow.Trace

/-!
# Seeds of the flow

The approximate inverse can be filled in place: a unit of flow enters one row after the other, and
all of them add to one result, in the column of the row that they have entered. No flow reads or
writes another column than its own. So the rows can be processed in any order, even when sums depend
on the order of their terms.
-/

namespace Workforce.Flow

variable {α : Type} {m n : ℕ} {r i : Fin m} {c : Fin n}

/-! ### Additions to a shared result -/

section AddTo

variable [Add α]

/-- Add a share to the entry of its column that belongs to the seed `i`. -/
def addTo (i : Fin m) (X : Mat α n m) (addition : Fin n × α) : Mat α n m :=
  X.set addition.1 i (X.get addition.1 i + addition.2)

lemma get_addTo_of_ne (h : r ≠ i) (X : Mat α n m) (addition : Fin n × α) (c : Fin n) :
    (addTo i X addition).get c r = X.get c r := by
  rw [addTo, Mat.get_set, if_neg fun hc => h hc.2]

lemma get_addTo_self (i : Fin m) (X : Mat α n m) (addition : Fin n × α) (c : Fin n) :
    (addTo i X addition).get c i =
      if addition.1 = c then X.get c i + addition.2 else X.get c i := by
  rw [addTo, Mat.get_set]
  by_cases h : addition.1 = c
  · simp [h]
  · simp [h, Ne.symm h]

variable {as : List (Fin n × α)} {X : Mat α n m}

/-- What is added for one seed leaves the columns of all others. -/
lemma get_foldl_addTo_of_ne (h : r ≠ i) : (as.foldl (addTo i) X).get c r = X.get c r := by
  induction as generalizing X with
  | nil => rfl
  | cons a as ih => rw [List.foldl_cons, ih, get_addTo_of_ne h]

/-- An entry of a seed gathers what is added to its column, one after the other. -/
lemma get_foldl_addTo_self : (as.foldl (addTo i) X).get c i =
    (as.filter fun a => a.1 = c).foldl (fun s a => s + a.2) (X.get c i) := by
  induction as generalizing X with
  | nil => rfl
  | cons a as ih =>
    rw [List.foldl_cons, ih, get_addTo_self, List.filter_cons]
    split <;> simp_all

end AddTo

/-! ### Flows of one seed -/

variable [Zero α] [Add α] [Mul α] [Div α] [Neg α] [LT α] [LE α] [DecidableLT α] [DecidableLE α]
variable {A : Mat α m n} {levels : ℕ} {X : Mat α n m}

/-- A flow `f` of the seed `i` that enters row `r` and may be pushed back `levels` times. It adds to
the result as it goes, depth first. -/
def pour (A : Mat α m n) (i : Fin m) :
    (levels : ℕ) → (r : Fin m) → (f : α) → Mat α n m → Mat α n m
  | levels, r, f, X =>
    let total := positiveSum (A.row r)
    if total ≤ 0 then X
    else
      let share := f / total
      (List.finRange n).foldl (fun X c =>
        if A.get r c ≤ 0 then X
        else
          let X := addTo i X (c, share)
          match levels with
          | 0 => X
          | levels + 1 =>
            (List.finRange m).foldl (fun X q =>
              if A.get q c < 0 then pour A i levels q (-A.get q c * share) X else X) X) X

/-- A flow makes its additions to the result, in their order. -/
lemma pour_eq_foldl (A : Mat α m n) (i : Fin m) (levels : ℕ) (r : Fin m) (f : α)
    (X : Mat α n m) : pour A i levels r f X = (additions A levels r f).foldl (addTo i) X := by
  induction levels generalizing r f X with
  | zero =>
    rw [pour, additions]
    dsimp only
    split_ifs
    · rfl
    · rw [List.foldl_flatMap]
      -- both are folds over the columns, so that what each column adds is compared
      congr 1
      funext X c
      split_ifs <;> rfl
  | succ levels ih =>
    rw [pour, additions]
    dsimp only
    split_ifs
    · rfl
    · rw [List.foldl_flatMap]
      congr 1
      funext X c
      split_ifs
      · rfl
      · rw [List.foldl_cons, List.foldl_flatMap]
        congr 1
        funext X q
        split_ifs
        · exact ih q _ X
        · rfl

lemma get_pour_of_ne (h : r ≠ i) (s : Fin m) (f : α) :
    (pour A i levels s f X).get c r = X.get c r := by
  rw [pour_eq_foldl, get_foldl_addTo_of_ne h]

/-- Flows of one seed make the same column of results that agree in that column. -/
lemma get_pour_self_congr {Y : Mat α n m} (h : ∀ c, X.get c i = Y.get c i) (r : Fin m) (f : α)
    (c : Fin n) : (pour A i levels r f X).get c i = (pour A i levels r f Y).get c i := by
  rw [pour_eq_foldl, pour_eq_foldl, get_foldl_addTo_self, get_foldl_addTo_self, h]

/-! ### Seeds in a row -/

variable [One α]

/-- A unit of flow enters the rows `seeds`, one after the other. -/
def pourAll (A : Mat α m n) (levels : ℕ) (seeds : List (Fin m)) (X : Mat α n m) : Mat α n m :=
  seeds.foldl (fun X i => pour A i levels i 1 X) X

variable {seeds : List (Fin m)}

/-- Seeds leave the columns of all others. -/
lemma get_pourAll_of_notMem (h : i ∉ seeds) (c : Fin n) :
    (pourAll A levels seeds X).get c i = X.get c i := by
  induction seeds generalizing X with
  | nil => rfl
  | cons s seeds ih =>
    obtain ⟨hne, hrest⟩ : i ≠ s ∧ i ∉ seeds := by simpa using h
    rw [pourAll, List.foldl_cons, ← pourAll, ih hrest, get_pour_of_ne hne]

/-- The column of a seed among distinct ones is filled by its own flow only. -/
lemma get_pourAll_of_mem (hseeds : seeds.Nodup) (h : i ∈ seeds) (c : Fin n) :
    (pourAll A levels seeds X).get c i = (pour A i levels i 1 X).get c i := by
  induction seeds generalizing X with
  | nil => exact absurd h List.not_mem_nil
  | cons s seeds ih =>
    obtain ⟨hs, hseeds⟩ := List.nodup_cons.mp hseeds
    rw [pourAll, List.foldl_cons, ← pourAll]
    by_cases hi : i = s
    · subst hi
      exact get_pourAll_of_notMem hs c
    · rw [ih hseeds (List.mem_of_ne_of_mem hi h)]
      exact get_pour_self_congr (fun c => get_pour_of_ne hi s 1) i 1 c

/-- What a seed alone makes of nothing is its column of the flow inverse. -/
lemma get_pour_zero (A : Mat α m n) (levels : ℕ) (i : Fin m) (c : Fin n) :
    (pour A i levels i 1 Mat.zero).get c i = (A.flowInverse levels).get c i := by
  rw [pour_eq_foldl, get_foldl_addTo_self, Mat.get_zero, Mat.get_flowInverse, received,
    get_foldl_deposit_eq_foldl, get_replicate]

/-- Arithmetic and comparisons are left open. Whatever the order in which the rows are entered, the
result is the flow inverse. Its columns are those that each seed alone makes of nothing, and the
flows of other seeds leave the column of a seed as it is, from whatever result they start. -/
theorem pourAll_eq_flowInverse (A : Mat α m n) (levels : ℕ) :
    (∀ seeds : List (Fin m), seeds.Perm (List.finRange m) →
      pourAll A levels seeds Mat.zero = A.flowInverse levels) ∧
    (∀ c i, (A.flowInverse levels).get c i = (pour A i levels i 1 Mat.zero).get c i) ∧
    ∀ (seeds : List (Fin m)) (X : Mat α n m) (i : Fin m), i ∉ seeds →
      ∀ c, (pourAll A levels seeds X).get c i = X.get c i := by
  refine ⟨fun seeds hseeds => ?_, fun c i => (get_pour_zero A levels i c).symm,
    fun seeds X i hi c => get_pourAll_of_notMem hi c⟩
  ext c i
  have hnodup : seeds.Nodup := hseeds.nodup_iff.mpr (List.nodup_finRange m)
  have hmem : i ∈ seeds := hseeds.mem_iff.mpr (List.mem_finRange i)
  rw [get_pourAll_of_mem hnodup hmem, get_pour_zero]

/-- Three rows that feed each other, with entries that no binary fraction is equal to. -/
def triangle : Mat Float32 3 3 := ⟨#v[#v[0.7, -0.1, 0], #v[0, 0.3, -0.2], #v[-0.6, 0.9, 0.1]]⟩

/-- The three rows can be entered from the middle, and the flow of the last one leaves the column of
the first as it was. -/
theorem pourAll_eq_flowInverse_triangle :
    pourAll triangle 4 [1, 2, 0] Mat.zero = triangle.flowInverse 4 ∧
      (pourAll triangle 4 [2] Mat.identity).get 0 0 = 1 := by
  obtain ⟨hordered, -, hothers⟩ := pourAll_eq_flowInverse triangle 4
  exact ⟨hordered [1, 2, 0] (by decide), (hothers [2] Mat.identity 0 (by decide) 0).trans rfl⟩

end Workforce.Flow
