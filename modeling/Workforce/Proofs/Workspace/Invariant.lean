import Workforce.Proofs.Workspace.Program

/-!
# What programs keep

At every moment of a program a matrix holds one entry for every row and column, its class and
shape are those it was made with, a vector is one column, and a view is of a line that its source
has, so that each of its entries can be read.
-/

namespace Workforce

namespace Grid

lemma length_entries {α : Type} (A : Grid α) : A.entries.length = A.rows * A.cols := by
  have hrow : A.body.rows.toList.map (fun row => row.toList.length) =
      List.replicate A.rows A.cols := by
    rw [List.eq_replicate_iff]
    simp
  rw [entries, Mat.entries, List.length_flatMap, hrow, List.sum_replicate, smul_eq_mul]

lemma get?_eq_some {α : Type} (A : Grid α) {i j : ℕ} (hi : i < A.rows) (hj : j < A.cols) :
    ∃ a, A.get? i j = some a :=
  ⟨A.body.get ⟨i, hi⟩ ⟨j, hj⟩, by simp [get?, hi, hj]⟩

end Grid

lemma getElem?_filterMap_of_isSome {α β : Type} {f : α → Option β} {as : List α}
    (h : ∀ a ∈ as, (f a).isSome) (k : ℕ) : (as.filterMap f)[k]? = as[k]?.bind f := by
  induction as generalizing k with
  | nil => rfl
  | cons a as ih =>
    obtain ⟨ha, has⟩ := List.forall_mem_cons.mp h
    obtain ⟨b, hb⟩ := Option.isSome_iff_exists.mp ha
    rw [List.filterMap_cons_some hb]
    cases k with
    | zero => simp [hb]
    | succ k => simp [ih has]

variable {A : Grid Float32} {axis : Axis} {i k : ℕ}

/-- A line that a matrix has runs through entries of it. -/
lemma Grid.get?_cell (hi : i < axis.count A) (hk : k < axis.length A) :
    ∃ x, A.get? (axis.cell i k).1 (axis.cell i k).2 = some x := by
  cases axis with
  | row => exact A.get?_eq_some hi hk
  | column => exact A.get?_eq_some hk hi

lemma Grid.getElem?_line (hi : i < axis.count A) (k : ℕ) : (A.line axis i)[k]? =
    if k < axis.length A then A.get? (axis.cell i k).1 (axis.cell i k).2 else none := by
  rw [line, getElem?_filterMap_of_isSome]
  · split_ifs with hk
    · rw [List.getElem?_range hk]
      rfl
    · rw [List.getElem?_eq_none (by simpa using hk)]
      rfl
  · intro k hk
    exact Option.isSome_iff_exists.mpr (Grid.get?_cell hi (List.mem_range.mp hk))

namespace Workspace

variable {w : Workspace} {id : ℕ}

/-- An integer is in the range of a view as a quantity if it is as an integer. -/
lemma zero_le_whole_and_lt_iff {i : ℤ} {n : ℕ} :
    (0 : Quantity) ≤ .whole i ∧ Quantity.whole i < .whole n ↔ 0 ≤ i ∧ i < n :=
  and_congr (Quantity.le_whole 0 i) (Quantity.lt_whole i n)

/-- An entry of a view that is there can be read. -/
lemma evalGet_line {id : ℕ} {view : Line} {entries : List Float32} {x : Float32}
    (h : entries[k]? = some x) :
    evalGet (.whole k) (.line id view entries) = .ok (answered (.real (widen x))) := by
  have hk : k < entries.length := (List.getElem?_eq_some_iff.mp h).1
  have hread : readView entries (.number (.whole k)) = .ok x := by
    rw [readView, if_pos (zero_le_whole_and_lt_iff.mpr (by omega))]
    simp [h]
  rw [evalGet, Literal.whole, hread]
  rfl

/-- Every reference is to an object that is there. At every moment of a program, and at every later
one, the objects are what they should be. -/
theorem representation_of_program (program later : List Statement) :
    let w := empty.runAll program
    w.WellFormed ∧
    (∀ s v, (w.run s).1 = .ok v → v.IsIn (w.run s).2) ∧
    (∀ id kind A, w.grid? id = some (kind, A) →
      A.entries.length = A.rows * A.cols ∧ (kind = .vector → A.cols = 1) ∧
      ∃ B, (w.runAll later).grid? id = some (kind, B) ∧ B.shape = A.shape) ∧
    ∀ id view, w.objects[id]? = some (.line view) →
      (w.runAll later).objects[id]? = some (.line view) ∧
      ∃ kind A, w.grid? view.source = some (kind, A) ∧ view.index < view.axis.count A ∧
        ∀ k : ℕ, k < view.axis.length A → ∃ x,
          A.get? (view.axis.cell view.index k).1 (view.axis.cell view.index k).2 = some x ∧
          evalGet (.whole k) (w.contentOf (.object id)) = .ok (answered (.real (widen x))) := by
  intro w
  have hw : w.WellFormed := wellFormed_runAll program
  have hretains := (hw.runAll later).2
  refine ⟨hw, fun s v => isIn_of_run hw, fun id kind A hA => ?_, fun id view hview => ?_⟩
  · exact ⟨A.length_entries, hw.fits hA, hretains.grid? hA⟩
  · obtain ⟨o, ho, rfl⟩ := hretains id _ hview
    -- the line of a view is there by the invariant, and so are all entries on it
    obtain ⟨kind, A, hA, hindex⟩ := hw.objects id _ hview
    refine ⟨ho, kind, A, hA, hindex, fun k hk => ?_⟩
    obtain ⟨x, hx⟩ := Grid.get?_cell hindex hk
    refine ⟨x, hx, ?_⟩
    have hentries : w.entriesOf view = A.line view.axis view.index := by
      rw [entriesOf, hA]
    rw [contentOf_line hview, hentries]
    refine evalGet_line ?_
    rw [Grid.getElem?_line hindex, if_pos hk, hx]

/-- The only column of a product with a vector. -/
def columnOfProduct : List Statement :=
  [⟨.zeros (.matrix (.whole 2) (.whole 3)), some "a"⟩,
    ⟨.zeros (.vector (.whole 3)), some "v"⟩,
    ⟨.binary .matmul (.name "a") (.name "v"), some "p"⟩,
    ⟨.view .column (.name "p") 0, some "c"⟩]

/-- The last entry is assigned, and the name is given to another vector. -/
def assignLast : List Statement :=
  [⟨.set (.name "p") (.whole (-1)) (.whole 5), none⟩, ⟨.neg (.name "v"), some "p"⟩]

theorem representation_of_columnOfProduct :
    let w := empty.runAll columnOfProduct
    w.objects[3]? = some (.line ⟨.column, 2, 0⟩) ∧
    (w.runAll assignLast).objects[3]? = some (.line ⟨.column, 2, 0⟩) ∧
    ∃ kind A, w.grid? 2 = some (kind, A) ∧ 0 < A.cols ∧
      ∀ k : ℕ, k < A.rows → ∃ x, A.get? k 0 = some x ∧
        evalGet (.whole k) (w.contentOf (.object 3)) = .ok (answered (.real (widen x))) := by
  intro w
  have hview : w.objects[3]? = some (.line ⟨.column, 2, 0⟩) := rfl
  obtain ⟨-, -, -, hviews⟩ := representation_of_program columnOfProduct assignLast
  exact ⟨hview, hviews 3 ⟨.column, 2, 0⟩ hview⟩

end Workspace

end Workforce
