import Workforce.Number.Single
import Workforce.Proofs.Flow.Trace
import Workforce.Proofs.Number.Entry

/-!
# When more levels change nothing

A flow is pushed back along the edges of a graph on the rows: from a row to every row that takes
from a column to which the first one gives. If walks in this graph have at most `k` edges, no flow
is pushed back more than `k` times, and the flow inverse is the same at all depths from `k` on.
This holds whatever the numbers do, as long as every entry is positive or not.
-/

namespace Workforce

variable {α : Type} {m n : ℕ}

namespace Flow

/-- Row `q` takes from a column that row `p` gives to, for numbers of any kind. -/
def PassesTo [Zero α] [LT α] (A : Mat α m n) (p q : Fin m) : Prop :=
  ∃ c, 0 < A.get p c ∧ A.get q c < 0

instance [Zero α] [LT α] [DecidableLT α] (A : Mat α m n) (p q : Fin m) :
    Decidable (PassesTo A p q) :=
  inferInstanceAs (Decidable (∃ c, 0 < A.get p c ∧ A.get q c < 0))

section

variable [Zero α] [Add α] [Div α] [LT α] [LE α] [DecidableLT α] [DecidableLE α] [Mul α] [Neg α]
variable {A : Mat α m n} {a : Addition α m n} {levels k : ℕ} {r : Fin m} {f : α}

/-- A flow that has been pushed back `k` times has walked along `k` edges. -/
lemma exists_walk_of_mem_trace (hpos : ∀ p c, ¬ A.get p c ≤ 0 → 0 < A.get p c)
    (ha : a ∈ trace A levels 0 r f) :
    ∃ w : List (Fin m), w.IsChain (PassesTo A) ∧ w.length = a.level + 1 ∧
      w.getLast? = some a.row := by
  refine (forall_mem_trace (P := fun level p _ => ∃ w : List (Fin m), w.IsChain (PassesTo A) ∧
    w.length = level + 1 ∧ w.getLast? = some p) ?_ ?_ a ha).1
  · exact ⟨[r], List.isChain_singleton r, rfl, rfl⟩
  · rintro b hb ⟨w, hw, hlength, hlast⟩ q hq
    have hentry := (isMadeIn_of_mem_trace hb).not_entry_le
    have hedge : PassesTo A b.row q := ⟨b.column, hpos _ _ hentry, hq⟩
    refine ⟨w ++ [q], List.isChain_append.mpr ⟨hw, List.isChain_singleton q, ?_⟩, ?_, ?_⟩
    · rintro p hp _ ⟨⟩
      rw [hlast] at hp
      cases hp
      exact hedge
    · rw [List.length_append, hlength, List.length_singleton]
    · exact List.getLast?_concat

/-- Levels beyond the longest walk make no additions. -/
lemma trace_eq_of_walks (hpos : ∀ p c, ¬ A.get p c ≤ 0 → 0 < A.get p c)
    (hwalk : ∀ w : List (Fin m), w.IsChain (PassesTo A) → w.length ≤ k + 1) (h : k ≤ levels) :
    trace A levels 0 r f = trace A k 0 r f := by
  rw [← filter_trace h, Eq.comm, List.filter_eq_self]
  intro a ha
  obtain ⟨w, hw, hlength, -⟩ := exists_walk_of_mem_trace hpos ha
  have hle := hwalk w hw
  rw [decide_eq_true_eq]
  omega

lemma flowInverse_eq_of_walks [One α] (hpos : ∀ p c, ¬ A.get p c ≤ 0 → 0 < A.get p c)
    (hwalk : ∀ w : List (Fin m), w.IsChain (PassesTo A) → w.length ≤ k + 1) (h : k ≤ levels) :
    A.flowInverse levels = A.flowInverse k := by
  ext c r
  rw [get_flowInverse_eq_foldl, get_flowInverse_eq_foldl, additionsTo, additionsTo,
    trace_eq_of_walks hpos hwalk h]

end

/-- If no entry is undefined and no walk has more than `k` edges, all depths from `k` on give the
same flow inverse, bit for bit. -/
theorem flowInverse_saturates (A : Mat Float32 m n)
    (hproper : ∀ p c, isProper (A.get p c) = true) (k : ℕ)
    (hwalk : ∀ w : List (Fin m), w.IsChain (PassesTo A) → w.length ≤ k + 1) (d : ℕ) (hd : k ≤ d) :
    A.flowInverse d = A.flowInverse k := by
  refine flowInverse_eq_of_walks (fun p c hentry => ?_) hwalk hd
  exact Single.pos_iff_not_le_zero.mpr ⟨hproper p c, hentry⟩

/-- A chain of three rows, each of which takes from the one above it. -/
def chain : Mat Float32 3 3 := ⟨#v[#v[3, 0, 0], #v[-1, 7, 0], #v[0, -0.1, 4]]⟩

/-- A walk down the chain has at most two edges. -/
theorem flowInverse_saturates_chain : chain.flowInverse 7 = chain.flowInverse 2 := by
  have hdown : ∀ p q, PassesTo chain p q → p < q := by decide +kernel
  refine flowInverse_saturates chain (by decide +kernel) 2 (fun w hw => ?_) 7 (by decide)
  have hnodup : w.Nodup := (List.isChain_iff_pairwise.mp (hw.imp hdown)).imp ne_of_lt
  exact hnodup.length_le_card

end Flow

end Workforce
