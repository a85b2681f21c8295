import Mathlib
import Workforce.Flow
import Workforce.Proofs.Mat.Summation

/-!
# Where additions come from

A flow adds to columns at the row that it enters, and what is pushed back from there adds to
columns at other rows. `trace` lists the same additions as `additions` does, each with its origin:
how often the flow has been pushed back, the row that it has entered, and what has entered there.
A flow that may be pushed back more often makes the same additions at the levels that it had before.
-/

namespace Workforce.Flow

variable {α : Type} {m n : ℕ}

/-- An addition to a column, and where it comes from. -/
structure Addition (α : Type) (m n : ℕ) where
  /-- How often the flow has been pushed back. -/
  level : ℕ
  /-- The row that the flow has entered. -/
  row : Fin m
  /-- The column that receives a share. -/
  column : Fin n
  /-- What has entered the row. -/
  flow : α
  share : α
deriving DecidableEq

/-! ### Entering a row -/

variable [Zero α] [Add α] [LT α] [DecidableLT α]

/-- A row is split by its positive entries, which are summed from left to right. -/
lemma addsUp_positiveSum (as : List α) :
    AddsUp id (· + ·) (as.filter (0 < ·)) (positiveSum as) := by
  have h : AddsUp id (· + ·) [] (0 : α) := .nil
  simpa [positiveSum, List.foldl_filter] using h.foldl (as.filter (0 < ·))

variable [Div α] [LE α] [DecidableLE α]
variable {A : Mat α m n} {a : Addition α m n} {levels level : ℕ} {r : Fin m} {f : α}

/-- The additions of a flow `f` that enters row `r`, each followed by what comes back through its
column. -/
def enter (A : Mat α m n) (level : ℕ) (r : Fin m) (f : α)
    (back : Fin n → α → List (Addition α m n)) : List (Addition α m n) :=
  let total := positiveSum (A.row r)
  if total ≤ 0 then []
  else
    let share := f / total
    (List.finRange n).flatMap fun c =>
      if A.get r c ≤ 0 then [] else ⟨level, r, c, f, share⟩ :: back c share

/-- What holds of an addition by the row and the column at which it is made. -/
structure Addition.IsMadeIn (A : Mat α m n) (a : Addition α m n) : Prop where
  not_total_le : ¬ positiveSum (A.row a.row) ≤ 0
  not_entry_le : ¬ A.get a.row a.column ≤ 0
  share_eq : a.share = a.flow / positiveSum (A.row a.row)

lemma mem_enter_iff {back : Fin n → α → List (Addition α m n)} :
    a ∈ enter A level r f back ↔
      ¬ positiveSum (A.row r) ≤ 0 ∧ ∃ c, ¬ A.get r c ≤ 0 ∧
        (a = ⟨level, r, c, f, f / positiveSum (A.row r)⟩ ∨
          a ∈ back c (f / positiveSum (A.row r))) := by
  rw [enter]
  split_ifs with htotal
  · simp [htotal]
  · rw [and_iff_right htotal, List.mem_flatMap]
    refine exists_congr fun c => ?_
    split_ifs with hc
    · simp [hc]
    · rw [List.mem_cons, and_iff_right hc, and_iff_right (List.mem_finRange c)]

lemma filter_enter {p : Addition α m n → Bool} {back : Fin n → α → List (Addition α m n)}
    (hp : ∀ c share, p ⟨level, r, c, f, share⟩ = true) :
    (enter A level r f back).filter p =
      enter A level r f fun c share => (back c share).filter p := by
  rw [enter, enter]
  simp only [apply_ite (List.filter p), List.filter_flatMap, List.filter_nil, List.filter_cons, hp,
    if_true]

variable [Mul α] [Neg α]

/-! ### Traces -/

/-- The additions caused by a flow `f` that enters row `r` after it has been pushed back `level`
times, and that may be pushed back `levels` times more. -/
def trace (A : Mat α m n) : (levels level : ℕ) → (r : Fin m) → (f : α) → List (Addition α m n)
  | 0, level, r, f => enter A level r f fun _ _ => []
  | levels + 1, level, r, f =>
    enter A level r f fun c share =>
      (List.finRange m).flatMap fun q =>
        if A.get q c < 0 then trace A levels (level + 1) q (-A.get q c * share) else []

/-- The additions that are traced are those that are made. -/
lemma map_trace (A : Mat α m n) (levels level : ℕ) (r : Fin m) (f : α) :
    (trace A levels level r f).map (fun a => (a.column, a.share)) = additions A levels r f := by
  induction levels generalizing level r f with
  | zero =>
    rw [trace, additions, enter]
    simp only [List.map_flatMap, apply_ite (List.map _), List.map_nil, List.map_cons]
  | succ levels ih =>
    rw [trace, additions, enter]
    simp only [List.map_flatMap, apply_ite (List.map _), List.map_nil, List.map_cons, ih]

/-- What holds of the flow that enters first, and of what is pushed back from each addition, holds
of the flows of all additions. -/
lemma forall_mem_trace {P : ℕ → Fin m → α → Prop} (hfirst : P level r f)
    (hback : ∀ a ∈ trace A levels level r f, P a.level a.row a.flow → ∀ q, A.get q a.column < 0 →
      P (a.level + 1) q (-A.get q a.column * a.share)) :
    ∀ a ∈ trace A levels level r f, P a.level a.row a.flow ∧ a.IsMadeIn A := by
  intro a ha
  induction levels generalizing level r f with
  | zero =>
    rw [trace, mem_enter_iff] at ha
    obtain ⟨htotal, c, hc, rfl | hnone⟩ := ha
    · exact ⟨hfirst, htotal, hc, rfl⟩
    · cases hnone
  | succ levels ih =>
    rw [trace, mem_enter_iff] at ha
    obtain ⟨htotal, c, hc, rfl | hmem⟩ := ha
    · exact ⟨hfirst, htotal, hc, rfl⟩
    · obtain ⟨q, -, hq⟩ := List.mem_flatMap.mp hmem
      split_ifs at hq with hneg
      -- what is pushed back from an addition to this row is a trace of its own, one level further
      · refine ih ?_ (fun b hb => hback b ?_) hq
        · refine hback ⟨level, r, c, f, _⟩ ?_ hfirst q hneg
          rw [trace, mem_enter_iff]
          exact ⟨htotal, c, hc, .inl rfl⟩
        · rw [trace, mem_enter_iff]
          refine ⟨htotal, c, hc, .inr (List.mem_flatMap.mpr ⟨q, List.mem_finRange q, ?_⟩)⟩
          rwa [if_pos hneg]
      · cases hq

lemma isMadeIn_of_mem_trace (ha : a ∈ trace A levels level r f) : a.IsMadeIn A :=
  (forall_mem_trace (P := fun _ _ _ => True) trivial (fun _ _ _ _ _ => trivial) a ha).2

lemma le_level_of_mem_trace (ha : a ∈ trace A levels level r f) : level ≤ a.level :=
  (forall_mem_trace (P := fun l _ _ => level ≤ l) le_rfl
    (fun _ _ hle _ _ => hle.trans (Nat.le_succ _)) a ha).1

/-! ### Truncation -/

/-- A flow that may be pushed back less often makes the additions of the levels that it reaches. -/
lemma filter_trace {levels' : ℕ} (h : levels ≤ levels') :
    (trace A levels' level r f).filter (fun a => a.level ≤ level + levels) =
      trace A levels level r f := by
  induction levels generalizing levels' level r f with
  | zero =>
    cases levels' with
    | zero =>
      rw [trace, filter_enter]
      · simp only [List.filter_nil]
      · simp
    | succ levels' =>
      rw [trace, trace, filter_enter]
      · congr 1
        funext c share
        -- everything that is pushed back is one level too far
        rw [List.filter_eq_nil_iff]
        intro a ha
        obtain ⟨q, -, hq⟩ := List.mem_flatMap.mp ha
        split_ifs at hq
        · have hle := le_level_of_mem_trace hq
          simp only [decide_eq_true_eq]
          omega
        · cases hq
      · simp
  | succ levels ih =>
    obtain ⟨levels', rfl⟩ := Nat.exists_eq_add_of_le' (Nat.one_le_of_lt h)
    have hrest (q : Fin m) (f : α) :
        (trace A levels' (level + 1) q f).filter (fun a => a.level ≤ level + (levels + 1)) =
          trace A levels (level + 1) q f := by
      rw [← ih (Nat.le_of_succ_le_succ h), Nat.add_right_comm, Nat.add_assoc]
    rw [trace, trace, filter_enter]
    · simp only [List.filter_flatMap, apply_ite (List.filter _), hrest, List.filter_nil]
    · simp

/-! ### Cells -/

variable [One α]

/-- The additions to the cell in row `c` and column `r` of the flow inverse, in their order. -/
def additionsTo (A : Mat α m n) (levels : ℕ) (c : Fin n) (r : Fin m) : List (Addition α m n) :=
  (trace A levels 0 r 1).filter fun a => a.column = c

/-- An entry of the flow inverse is the sum of the additions that are made to it. -/
lemma get_flowInverse_eq_foldl (A : Mat α m n) (levels : ℕ) (c : Fin n) (r : Fin m) :
    (A.flowInverse levels).get c r =
      (additionsTo A levels c r).foldl (fun s a => s + a.share) 0 := by
  rw [Mat.get_flowInverse, received, get_foldl_deposit_eq_foldl, get_replicate,
    ← map_trace A levels 0, List.filter_map, List.foldl_map]
  rfl

end Workforce.Flow
