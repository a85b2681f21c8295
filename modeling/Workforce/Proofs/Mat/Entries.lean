import Mathlib.Data.List.OfFn
import Mathlib.Logic.Equiv.Fin.Basic
import Workforce.Grid.Build
import Workforce.Proofs.Mat.Matrix
import Workforce.Proofs.Workspace.Invariant

/-!
# Entries in their order

The entries of a matrix are listed row by row, so the places of the list are the pairs of a row and
a column. A matrix is built back from its list of entries, and matrices of one shape are related
entry by entry exactly when their lists of entries are.
-/

namespace Workforce

namespace Mat

variable {α β : Type} {m n : ℕ} {A : Mat α m n} {B : Mat β m n}

lemma finProdFinEquiv_symm_mk (i : Fin m) (j : Fin n) (h : i * n + j < m * n) :
    finProdFinEquiv.symm ⟨i * n + j, h⟩ = (i, j) := by
  rw [Equiv.symm_apply_eq]
  ext
  rw [finProdFinEquiv_apply_val]
  ring

lemma entries_eq_ofFn (A : Mat α m n) : A.entries = List.ofFn fun k : Fin (m * n) =>
    A.get (finProdFinEquiv.symm k).1 (finProdFinEquiv.symm k).2 := by
  simp only [entries_eq_flatMap, List.ofFn_mul, List.flatMap_def, ← List.ofFn_eq_map,
    finProdFinEquiv_symm_mk]

/-- Matrices are related entry by entry exactly when their lists of entries are. -/
lemma forall₂_entries_iff {R : α → β → Prop} :
    List.Forall₂ R A.entries B.entries ↔ ∀ i j, R (A.get i j) (B.get i j) := by
  rw [entries_eq_ofFn, entries_eq_ofFn, List.forall₂_iff_get]
  simp only [List.length_ofFn, List.get_ofFn, true_and]
  constructor
  · intro h i j
    have hk := h (finProdFinEquiv (i, j)) (Fin.isLt _) (Fin.isLt _)
    simpa only [Fin.cast_mk, Fin.eta, Equiv.symm_apply_apply] using hk
  · intro h k _ _
    exact h _ _

lemma eq_of_entries_eq {B : Mat α m n} (h : A.entries = B.entries) : A = B := by
  ext i j
  have hforall := List.forall₂_eq_eq_eq.symm ▸ h
  exact forall₂_entries_iff.mp hforall i j

/-! ### Columns -/

lemma entries_eq_column (A : Mat α n 1) : A.entries = A.column 0 := by
  rw [entries_eq_flatMap, column, List.map_eq_flatMap]
  rfl

lemma column_zipWith {γ : Type} (g : α → β → γ) (A : Mat α n 1) (B : Mat β n 1) :
    (zipWith g A B).column 0 = ((A.column 0).zip (B.column 0)).map fun p => g p.1 p.2 := by
  rw [column, column, column, List.zip_map', List.map_map]
  exact List.map_congr_left fun i _ => get_zipWith ..

end Mat

namespace Grid

variable {α : Type} {rows cols n : ℕ} {as : Array α}

/-- Enough entries for all places are the entries of the grid that they fill. -/
lemma entries_ofEntries [Zero α] (hsize : as.size = rows * cols) :
    (ofEntries rows cols as).entries = as.toList := by
  have hfilled : as.toList = List.ofFn fun k : Fin (rows * cols) => as.getD k 0 := by
    apply List.ext_getElem
    · simp [hsize]
    · intro k hk _
      simp [Array.getD_eq_getD_getElem?, Array.getElem?_eq_getElem (show k < as.size from hk)]
  rw [hfilled, entries, ofEntries, Mat.entries_eq_ofFn]
  simp only [Mat.get_ofFn]
  congr 1
  funext k
  obtain ⟨⟨i, j⟩, rfl⟩ := finProdFinEquiv.surjective k
  rw [Equiv.symm_apply_apply, finProdFinEquiv_apply_val, mul_comm, add_comm]

/-- A grid is built back from its shape and its entries. -/
lemma ofEntries_entries [Zero α] (A : Grid α) :
    ofEntries A.rows A.cols A.entries.toArray = A := by
  have hentries : (ofEntries A.rows A.cols A.entries.toArray).entries = A.entries :=
    entries_ofEntries (by simpa using A.length_entries)
  obtain ⟨A⟩ := A
  exact congrArg Grid.mk (Mat.eq_of_entries_eq hentries)

lemma ofColumn_eq {as : List α} (h : as.length = n) :
    ofColumn as = ⟨Mat.ofFn fun (i : Fin n) (_ : Fin 1) => as[i]⟩ := by
  subst h
  rfl

/-- A column is built back from its entries. -/
lemma ofColumn_column (A : Mat α n 1) : ofColumn (A.column 0) = ⟨A⟩ := by
  rw [ofColumn_eq (n := n) (by simp [Mat.column])]
  congr
  ext i j
  rw [Subsingleton.elim j 0]
  simp [Mat.column]

end Grid

end Workforce
