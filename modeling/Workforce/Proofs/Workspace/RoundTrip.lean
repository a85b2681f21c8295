import Workforce.Proofs.Number.Conversion
import Workforce.Proofs.Workspace.Comparison
import Workforce.Proofs.Workspace.ShapeTyping

/-!
# Listing entries and building them back

The entries of a matrix are listed as numbers of binary64, which are rounded to the same entries.
The list of a vector has one member for every entry, so the vector is built back from it. The list
of a matrix has one member for every row, so without rows it does not tell the number of columns,
and no matrix is built from it.
-/

namespace Workforce

variable {A B : Grid Float32} {kind : Kind}

/-! ### Lists of entries -/

namespace Literal

lemma converts_real_widen (x : Float32) : (real (widen x)).Converts x := by
  have h : (real (widen x)).Converts (narrow (widen x)) := .number rfl
  rwa [narrow_widen] at h

lemma forall₂_converts (xs : List Float32) :
    List.Forall₂ Converts (xs.map fun x => real (widen x)) xs :=
  List.forall₂_map_left_iff.mpr (List.forall₂_same.mpr fun x _ => converts_real_widen x)

lemma isAtom_of_mem_map {xs : List Float32} : ∀ a ∈ xs.map (fun x => real (widen x)), a.IsAtom :=
  isAtom_of_forall₂ (forall₂_converts xs)

/-- A matrix is not arranged in an empty list. -/
lemma Arranges.ne_nil {ls as : List Literal} {s : Shape} (h : (list ls).Arranges .matrix s as) :
    ls ≠ [] := by
  cases h with
  | rows hne => simpa using hne

end Literal

lemma Grid.flatten_toLists (A : Grid Float32) : A.toLists.flatten = A.entries := by
  rw [toLists, entries, Mat.entries_eq_flatMap, List.flatMap_def]
  exact congrArg List.flatten (List.map_congr_left fun i _ => A.body.row_eq_map i)

/-- The rows of a matrix, as lists of literals. -/
def Grid.listedRows (A : Grid Float32) : List (List Literal) :=
  A.toLists.map fun row => row.map fun x => .real (widen x)

namespace Grid

lemma length_listedRows (A : Grid Float32) : A.listedRows.length = A.rows := by
  simp [listedRows, toLists]

lemma flatten_listedRows (A : Grid Float32) :
    A.listedRows.flatten = A.entries.map fun x => .real (widen x) := by
  rw [listedRows, ← List.map_flatten, flatten_toLists]

lemma toLiteral_eq (A : Grid Float32) : A.toLiteral = .list (A.listedRows.map .list) := by
  rw [toLiteral, listedRows, List.map_map]
  rfl

lemma length_of_mem_listedRows {row : List Literal} (h : row ∈ A.listedRows) :
    row.length = A.cols := by
  obtain ⟨row, hrow, rfl⟩ := List.mem_map.mp h
  obtain ⟨i, -, rfl⟩ := List.mem_map.mp hrow
  simp [Mat.row]

end Grid

/-- The atoms of the list of a matrix are its entries, in order. -/
lemma atoms_gridLiteral (kind : Kind) (A : Grid Float32) :
    (gridLiteral kind A).atoms = A.entries.map fun x => .real (widen x) := by
  cases kind with
  | matrix =>
    rw [gridLiteral, A.toLiteral_eq, Literal.atoms_rows, A.flatten_listedRows]
    intro row hrow
    obtain ⟨row, -, rfl⟩ := List.mem_map.mp hrow
    exact Literal.isAtom_of_mem_map
  | vector => exact Literal.atoms_list Literal.isAtom_of_mem_map

/-- A literal writes one matrix or vector at most. -/
lemma Literal.Writes.unique {l : Literal} (h : l.Writes kind A) (h' : l.Writes kind B) : A = B := by
  have hbuild := Workspace.evalBuild_grid_iff.mpr h
  rw [Workspace.evalBuild_grid_iff.mpr h'] at hbuild
  cases hbuild
  rfl

lemma writes_gridLiteral (hfits : A.Fits kind) (hrows : kind = .vector ∨ 0 < A.rows) :
    (gridLiteral kind A).Writes kind A := by
  refine ⟨_, ?_, Literal.forall₂_converts A.entries⟩
  cases kind with
  | matrix =>
    have hne : A.listedRows ≠ [] := by
      rw [← List.length_pos_iff, A.length_listedRows]
      simpa using hrows
    have harranges := Literal.Arranges.rows hne fun row hrow => Grid.length_of_mem_listedRows hrow
    rwa [← A.toLiteral_eq, A.length_listedRows, A.flatten_listedRows] at harranges
  | vector =>
    have harranges := Literal.Arranges.flat (A.entries.map fun x => .real (widen x))
    rwa [List.length_map, A.length_entries, hfits rfl, mul_one, ← hfits rfl] at harranges

/-- The list of a matrix without rows writes no matrix. -/
lemma rows_pos_of_writes_gridLiteral (h : (gridLiteral kind A).Writes kind B) :
    kind = .vector ∨ 0 < A.rows := by
  cases kind with
  | vector => exact .inl rfl
  | matrix =>
    obtain ⟨as, harranges, -⟩ := h
    rw [gridLiteral, A.toLiteral_eq] at harranges
    have hne : A.listedRows ≠ [] := fun h => harranges.ne_nil (List.map_eq_nil_iff.mpr h)
    rw [← List.length_pos_iff, A.length_listedRows] at hne
    exact .inr hne

lemma writes_gridLiteral_iff (hfits : A.Fits kind) :
    (gridLiteral kind A).Writes kind B ↔ (kind = .vector ∨ 0 < A.rows) ∧ B = A := by
  constructor
  · intro h
    have hrows := rows_pos_of_writes_gridLiteral h
    exact ⟨hrows, h.unique (writes_gridLiteral hfits hrows)⟩
  · rintro ⟨hrows, rfl⟩
    exact writes_gridLiteral hfits hrows

/-! ### Entries that equal themselves -/

lemma Single.sameNumber_self_iff {x : Float32} : SameNumber x x ↔ x.isNaN = false := by
  have hnumber : SameNumber x x ↔ number? x ≠ none := by
    rw [Option.ne_none_iff_exists']
    exact exists_congr fun q => and_self_iff
  rw [hnumber, number?]
  change _ ↔ x.toModel.unpack.isNaN = false
  cases x.toModel.unpack with
  | finite s m e h => cases s <;> simp [exactNumber?, Float.Model.UnpackedFloat.isNaN]
  | notANumber | infinity | zero => simp [exactNumber?, Float.Model.UnpackedFloat.isNaN]

lemma Grid.beq_self_iff : A.beq A = true ↔ ∀ x ∈ A.entries, x.isNaN = false := by
  rw [beq_iff, List.forall₂_same]
  simp only [true_and, Single.sameNumber_self_iff]

/-- A matrix equals its list exactly when it is built back and none of its entries is undefined. -/
lemma equalsLiteral_gridLiteral (hfits : A.Fits kind) :
    ∃ b, A.equalsLiteral (kind == .vector) (gridLiteral kind A) = .ok b ∧
      (b = true ↔ (kind = .vector ∨ 0 < A.rows) ∧ ∀ x ∈ A.entries, x.isNaN = false) := by
  have hrange : ∀ n : ℤ, .whole n ∈ (gridLiteral kind A).atoms →
      (Quantity.whole n).fits = true := by
    intro n hn
    rw [atoms_gridLiteral] at hn
    obtain ⟨x, -, hx⟩ := List.mem_map.mp hn
    cases hx
  obtain ⟨b, hb, hiff⟩ := Grid.equalsLiteral_eq_ok hfits hrange
  refine ⟨b, hb, hiff.trans ?_⟩
  simp only [writes_gridLiteral_iff hfits, and_assoc, exists_and_left, exists_eq_left,
    Grid.beq_self_iff]

namespace Workspace

variable {w w' : Workspace} {s t : String} {id : ℕ}

/-- What a value holds does not depend on names. -/
lemma expand_of_objects_eq (h : w'.objects = w.objects) (fuel : ℕ) :
    w'.expand fuel = w.expand fuel := by
  have hentries (view : Line) : w'.entriesOf view = w.entriesOf view := by
    rw [entriesOf, entriesOf, grid?, grid?, h]
  induction fuel with
  | zero =>
    funext v
    cases v <;> rfl
  | succ fuel ih =>
    funext v
    cases v with
    | atom l => rfl
    | object id => simp only [expand, h, hentries, ih]

lemma contentOf_bind (w : Workspace) (s : String) (u v : Value) :
    (w.bind s u).contentOf v = w.contentOf v := by
  have hobjects : (w.bind s u).objects = w.objects := rfl
  rw [contentOf, contentOf, hobjects, expand_of_objects_eq hobjects]

/-- A matrix or vector is compared with a value that is no matrix by what this writes. -/
lemma run_equal_name {v : Value} {b negated : Bool} {target : Option String} {A : Grid Float32}
    (hs : w.lookup s = some (.object id)) (hA : w.grid? id = some (kind, A))
    (ht : w.lookup t = some v) (hv : ∀ id kind B, w.contentOf v ≠ .grid id kind B)
    (hb : A.equalsLiteral (kind == .vector) (w.contentOf v).literal = .ok b) :
    (w.run ⟨.equal negated (.name s) (.name t), target⟩).1 =
      .ok (.atom (.number (.flag (b != negated)))) := by
  have hname : (operand (.name t)).run w = .ok (w.contentOf v, w) :=
    operand_name_eq_ok_iff.mpr ⟨v, ht, rfl, rfl⟩
  have heval : (eval (.equal negated (.name s) (.name t))).run w =
      .ok (decided (b != negated), w) := by
    rw [eval, run_bind_of_ok (operand_name_of_grid hs hA), run_bind_of_ok hname,
      run_liftM_eq_ok_iff, evalEqual, contentsEqual_grid id hv, hb]
    exact ⟨rfl, rfl⟩
  rw [run_of_ok heval]
  rfl

lemma eval_toList (hs : w.lookup s = some (.object id)) (hA : w.grid? id = some (kind, A)) :
    (eval (.toList (.name s))).run w = .ok (.answer (.ofLiteral (gridLiteral kind A)), w) := by
  rw [eval, run_bind_of_ok (gridOperand_name_of_grid hs hA _)]
  rfl

/-- A matrix with a row, and every vector, is built back from its list, with its shape and with the
same entries, undefined ones included. Nothing is built from the list of a matrix without rows. The
matrix or vector equals its list exactly when it is built back and no entry is undefined. -/
theorem build_toList_iff (hs : w.lookup s = some (.object id)) (hA : w.grid? id = some (kind, A))
    (hfits : A.Fits kind) (ht : t ≠ s) :
    let l := gridLiteral kind A
    let w' := (w.run ⟨.toList (.name s), some t⟩).2
    (∃ v, (w.run ⟨.toList (.name s), some t⟩).1 = .ok v ∧ w'.lookup t = some v ∧
      (w'.contentOf v).literal = l) ∧
    (∀ effect, evalBuild kind l none = .ok effect ↔
      (kind = .vector ∨ 0 < A.rows) ∧ effect = .answer (.grid kind A)) ∧
    ∃ b, (b = true ↔ (kind = .vector ∨ 0 < A.rows) ∧ ∀ x ∈ A.entries, x.isNaN = false) ∧
      ∀ negated target, (w'.run ⟨.equal negated (.name s) (.name t), target⟩).1 =
        .ok (.atom (.number (.flag (b != negated)))) := by
  intro l w'
  have hrun : w.run ⟨.toList (.name s), some t⟩ = (.ok (w.store (.ofLiteral l)).1,
      (w.store (.ofLiteral l)).2.bind t (w.store (.ofLiteral l)).1) :=
    run_of_ok (s := ⟨_, some t⟩) (eval_toList hs hA)
  have hw' : w' = (w.store (.ofLiteral l)).2.bind t (w.store (.ofLiteral l)).1 :=
    congrArg Prod.snd hrun
  -- storing the list leaves the matrix where it was, and naming it hides no other name
  have hext := extends_store w (.ofLiteral l)
  have hlist : w'.contentOf (w.store (.ofLiteral l)).1 =
      (w.store (.ofLiteral l)).2.contentOf (w.store (.ofLiteral l)).1 := by
    rw [hw', contentOf_bind]
  have hs' : w'.lookup s = some (.object id) := by
    rw [hw', lookup_bind_of_ne _ _ ht, hext.lookup_eq, hs]
  have hA' : w'.grid? id = some (kind, A) := by
    rw [hw']
    exact hext.grid?_eq_some hA
  have hname : w'.lookup t = some (w.store (.ofLiteral l)).1 := by rw [hw', lookup_bind]
  refine ⟨⟨_, congrArg Prod.fst hrun, hname, ?_⟩, fun effect => ?_, ?_⟩
  · rw [hlist, literal_contentOf_store]
  · rw [evalBuild_eq_ok_iff]
    constructor
    · rintro ⟨B, rfl, hB, -⟩
      obtain ⟨hrows, rfl⟩ := (writes_gridLiteral_iff hfits).mp hB
      exact ⟨hrows, rfl⟩
    · rintro ⟨hrows, rfl⟩
      exact ⟨A, rfl, (writes_gridLiteral_iff hfits).mpr ⟨hrows, rfl⟩, .nothing ..⟩
  · obtain ⟨b, hb, hiff⟩ := equalsLiteral_gridLiteral hfits
    refine ⟨b, hiff, fun negated target => run_equal_name hs' hA' hname ?_ ?_⟩
    · rw [hlist]
      -- the name stands for a list and no matrix, so that it is compared as a literal
      exact contentOf_store_ne_grid w l
    · rw [hlist, literal_contentOf_store, hb]

/-- A matrix of zeros with an undefined entry. -/
def withUndefined : List Statement :=
  [⟨.zeros (.matrix (.whole 2) (.whole 2)), some "a"⟩,
    ⟨.set (.name "a") (.list [.whole 0, .whole (-1)]) .null, none⟩]

/-- It is built back from its list, which it does not equal. -/
theorem build_toList_iff_withUndefined :
    let w := empty.runAll withUndefined
    let w' := (w.run ⟨.toList (.name "a"), some "l"⟩).2
    ∃ A, w.grid? 0 = some (.matrix, A) ∧
      evalBuild .matrix (gridLiteral .matrix A) none = .ok (.answer (.grid .matrix A)) ∧
      (w'.run ⟨.equal false (.name "a") (.name "l"), none⟩).1 =
        .ok (.atom (.number (.flag false))) := by
  intro w w'
  let A : Grid Float32 := (Grid.mk (Mat.zero : Mat Float32 2 2)).set 0 1 (narrow (0 / 0))
  have ha : w.lookup "a" = some (.object 0) := rfl
  have hA : w.grid? 0 = some (.matrix, A) := rfl
  obtain ⟨-, hbuild, b, hb, hequal⟩ :=
    build_toList_iff (t := "l") ha hA (fun h => nomatch h) (by decide)
  have hentry : narrow (0 / 0) ∈ A.entries :=
    Mat.mem_entries_iff.mpr ⟨(0 : Fin 2), (1 : Fin 2), rfl⟩
  have hundefined : (narrow (0 / 0)).isNaN = true := by decide +kernel
  have hfalse : b = false := by
    rw [Bool.eq_false_iff, ne_eq, hb]
    rintro ⟨-, hdefined⟩
    rw [hdefined _ hentry] at hundefined
    cases hundefined
  have hrows : 0 < A.rows := Nat.two_pos
  refine ⟨A, hA, (hbuild _).mpr ⟨.inr hrows, rfl⟩, ?_⟩
  rw [hequal, hfalse]
  rfl

end Workspace

end Workforce
