import Workforce.Proofs.Mat.Entries

/-!
# The grammar of matrices and vectors

A matrix is written as a list of rows of one length, a vector as a flat list or as a single column
(`Literal.Arranges`), and every atom has to be a number of some kind (`Literal.Converts`). These are
the literals that a matrix or vector is built from, and the literal tells shape and entries of it.
-/

namespace Workforce

lemma exists_forall₂_iff {β γ : Type} {R : β → γ → Prop} {bs : List β} :
    (∃ cs, List.Forall₂ R bs cs) ↔ ∀ b ∈ bs, ∃ c, R b c := by
  induction bs with
  | nil => simp
  | cons b bs ih =>
    rw [List.forall_mem_cons, ← ih]
    constructor
    · rintro ⟨cs, h⟩
      cases h with
      | cons hc hcs => exact ⟨⟨_, hc⟩, _, hcs⟩
    · rintro ⟨⟨c, hc⟩, cs, hcs⟩
      exact ⟨c :: cs, .cons hc hcs⟩

lemma exists_map_eq {β γ : Type} {f : β → γ} {P : β → Prop} {cs : List γ}
    (h : ∀ c ∈ cs, ∃ b, c = f b ∧ P b) : ∃ bs : List β, cs = bs.map f ∧ ∀ b ∈ bs, P b := by
  induction cs with
  | nil => exact ⟨[], rfl, by simp⟩
  | cons c cs ih =>
    obtain ⟨⟨b, rfl, hb⟩, hcs⟩ := List.forall_mem_cons.mp h
    obtain ⟨bs, rfl, hbs⟩ := ih hcs
    exact ⟨b :: bs, rfl, List.forall_mem_cons.mpr ⟨hb, hbs⟩⟩

namespace Literal

/-- Everything that is no list is an atom. -/
def IsAtom (l : Literal) : Prop := ∀ ls, l ≠ list ls

/-- The number that an atom stands for as an entry: nothing at all is undefined, a number in the
range of binary64 and a text that reads as a number are rounded. -/
inductive Converts : Literal → Float32 → Prop where
  | null : Converts null (narrow (0 / 0))
  | number {q : Quantity} (fits : q.fits = true) : Converts (number q) (narrow q.toFloat)
  | text {s : String} {x : Float} (reads : Decimal.readFloat? s = some x) :
      Converts (text s) (narrow x)

/-- A literal that arranges others in the places of a matrix or vector, row by row. To be entries
there, these have to be atoms that convert. -/
inductive Arranges : Kind → Literal → Shape → List Literal → Prop where
  /-- Rows of one length, at least one of them. -/
  | rows {rows : List (List Literal)} {n : ℕ} (ne_nil : rows ≠ [])
      (length_eq : ∀ row ∈ rows, row.length = n) :
      Arranges .matrix (list (rows.map list)) ⟨rows.length, n⟩ rows.flatten
  /-- A flat list, which may be empty. -/
  | flat (as : List Literal) : Arranges .vector (list as) ⟨as.length, 1⟩ as
  /-- A list of lists of one member each, at least one of them. -/
  | column {as : List Literal} (ne_nil : as ≠ []) :
      Arranges .vector (list (as.map fun a => list [a])) ⟨as.length, 1⟩ as

variable {l : Literal} {ls as : List Literal} {lengths : List ℕ} {n : ℕ} {x : Float32}

/-! ### Atoms -/

lemma Converts.isAtom (h : l.Converts x) : l.IsAtom := by
  cases h <;> exact fun _ h => nomatch h

lemma isAtom_of_forall₂ {xs : List Float32} (h : List.Forall₂ Converts as xs) :
    ∀ a ∈ as, a.IsAtom := by
  intro a ha
  obtain ⟨x, hx⟩ := exists_forall₂_iff.mp ⟨xs, h⟩ a ha
  exact hx.isAtom

lemma converts_iff : l.Converts x ↔ ∃ y, l.toElement = .ok y ∧ narrow y = x := by
  constructor
  · intro h
    cases h with
    | null => exact ⟨_, rfl, rfl⟩
    | number fits => exact ⟨_, by rw [toElement, Quantity.toFloat?, if_pos fits], rfl⟩
    | text reads => exact ⟨_, by rw [toElement, reads], rfl⟩
  · rintro ⟨y, hy, rfl⟩
    cases l with
    | null =>
      cases hy
      exact .null
    | number q =>
      rw [toElement, Quantity.toFloat?] at hy
      split_ifs at hy with hfits
      cases hy
      exact .number hfits
    | text s =>
      rw [toElement] at hy
      split at hy
      · cases hy
        exact .text ‹_›
      · cases hy
    | list ls => cases hy
    | table fields => cases hy

/-! ### Shapes -/

/-- An empty list has no members to speak for, so it has no lengths inside it. -/
lemma common_map_eq_some_iff {f : Literal → Option (List ℕ)} :
    common (ls.map f) = some lengths ↔
      (∀ l ∈ ls, f l = some lengths) ∧ (ls = [] → lengths = []) := by
  cases ls with
  | nil => simp [common, eq_comm]
  | cons l ls =>
    rw [List.map_cons, common]
    constructor
    · intro h
      split_ifs at h with hall
      simp only [List.all_map, List.all_eq_true, Function.comp_apply, beq_iff_eq] at hall
      refine ⟨List.forall_mem_cons.mpr ⟨h, fun l' hl' => ?_⟩, fun h => nomatch h⟩
      rw [hall l' hl', h]
    · rintro ⟨h, -⟩
      obtain ⟨hl, hls⟩ := List.forall_mem_cons.mp h
      rw [if_pos, hl]
      simpa [hl] using hls

lemma shape?_eq_some_nil_iff : l.shape? = some [] ↔ l.IsAtom := by
  cases l with
  | list ls => simp [shape?, IsAtom]
  | null | number | text | table => simp [shape?, IsAtom]

lemma shape?_eq_some_cons_iff : l.shape? = some (n :: lengths) ↔
    ∃ ls, l = list ls ∧ ls.length = n ∧ (∀ l ∈ ls, l.shape? = some lengths) ∧
      (ls = [] → lengths = []) := by
  cases l with
  | list ls =>
    rw [shape?, shapes_eq_map, Option.map_eq_some_iff]
    simp only [common_map_eq_some_iff, List.cons.injEq, list.injEq]
    constructor
    · rintro ⟨_, hcommon, hlength, rfl⟩
      exact ⟨ls, rfl, hlength, hcommon⟩
    · rintro ⟨_, rfl, hlength, hcommon⟩
      exact ⟨lengths, hcommon, hlength, rfl⟩
  | null | number | text | table => simp [shape?]

lemma shape?_eq_flat_iff : l.shape? = some [n] ↔
    ∃ as, l = list as ∧ as.length = n ∧ ∀ a ∈ as, a.IsAtom := by
  simp [shape?_eq_some_cons_iff, shape?_eq_some_nil_iff]

lemma shape?_eq_rows_iff {m : ℕ} : l.shape? = some [m, n] ↔
    ∃ rows : List (List Literal), l = list (rows.map list) ∧ rows ≠ [] ∧ rows.length = m ∧
      (∀ row ∈ rows, row.length = n) ∧ ∀ row ∈ rows, ∀ a ∈ row, a.IsAtom := by
  rw [shape?_eq_some_cons_iff]
  simp only [shape?_eq_flat_iff]
  constructor
  · rintro ⟨ls, rfl, hlength, hls, hne⟩
    obtain ⟨rows, rfl, hrows⟩ := exists_map_eq hls
    refine ⟨rows, rfl, ?_, by simpa using hlength, fun row h => (hrows row h).1,
      fun row h => (hrows row h).2⟩
    rintro rfl
    exact List.cons_ne_nil _ _ (hne rfl)
  · rintro ⟨rows, rfl, hne, hlength, hrows, hatoms⟩
    refine ⟨_, rfl, by simpa using hlength, ?_, fun h => absurd (List.map_eq_nil_iff.mp h) hne⟩
    simpa using fun row hrow => ⟨hrows row hrow, hatoms row hrow⟩

/-! ### Atoms in order -/

lemma atoms_eq_singleton (h : l.IsAtom) : l.atoms = [l] := by
  cases l with
  | list ls => exact absurd rfl (h ls)
  | null | number | text | table => rfl

lemma atoms_list (h : ∀ a ∈ as, a.IsAtom) : (list as).atoms = as := by
  rw [atoms, atomsOf_eq_flatMap, List.flatMap_def,
    List.map_congr_left fun a ha => atoms_eq_singleton (h a ha), ← List.flatMap_def,
    List.flatMap_singleton']

lemma atoms_rows {rows : List (List Literal)} (h : ∀ row ∈ rows, ∀ a ∈ row, a.IsAtom) :
    (list (rows.map list)).atoms = rows.flatten := by
  rw [atoms, atomsOf_eq_flatMap, List.flatMap_map, List.flatMap_def,
    List.map_congr_left fun row hrow => atoms_list (h row hrow), List.map_id']

/-! ### Arrangements -/

/-- Rows of one member each are a column. -/
lemma arranges_oneColumn_iff : l.Arranges .matrix ⟨n, 1⟩ as ↔
    as ≠ [] ∧ as.length = n ∧ l = list (as.map fun a => list [a]) := by
  have hflatten (as : List Literal) : (as.map fun a => [a]).flatten = as := by
    rw [← List.flatMap_def, List.flatMap_singleton']
  constructor
  · intro h
    cases h with
    | @rows rows _ hne hlengths =>
      obtain ⟨as, rfl, -⟩ := exists_map_eq (P := fun _ => True) fun row hrow =>
        (List.length_eq_one_iff.mp (hlengths row hrow)).imp fun _ h => ⟨h, trivial⟩
      rw [hflatten, List.length_map, List.map_map]
      exact ⟨fun h => hne (by simp [h]), rfl, rfl⟩
  · rintro ⟨hne, rfl, rfl⟩
    have h : (list ((as.map fun a => [a]).map list)).Arranges .matrix
        ⟨(as.map fun a => [a]).length, 1⟩ (as.map fun a => [a]).flatten :=
      .rows (by simpa using hne) (by simp)
    rwa [hflatten, List.length_map, List.map_map] at h

end Literal

open Literal (Converts Arranges)

variable {l : Literal} {as : List Literal} {lengths : List ℕ} {s : Shape} {uneven : ShapeError}
variable {entries : Array Float32}

lemma Literal.lengths_eq_ok_iff {limit : ℕ} :
    l.lengths limit = .ok lengths ↔ l.shape? = some lengths ∧ lengths.length ≤ limit := by
  rw [Literal.lengths]
  split
  case h_1 found hfound =>
    rw [hfound, Option.some.injEq]
    split_ifs with hlimit
    · rw [Except.ok.injEq]
      exact ⟨fun h => h ▸ ⟨rfl, hlimit⟩, And.left⟩
    · exact ⟨fun h => (nomatch h), fun ⟨h, h'⟩ => absurd (h ▸ h') hlimit⟩
  case h_2 hfound => simp [hfound]

namespace Grid

/-- The entry that an atom writes, as it is read in an array. -/
def readAtom (uneven : ShapeError) (atom : Literal) : Except BuildError Float32 :=
  match atom.toElement with
  | .ok x => .ok (narrow x)
  | .error (.unreadable _) => .error (.shape uneven)
  | .error .sequence => .error (.shape uneven)
  | .error e => .error (.element e)

lemma readArray_eq_bind (uneven : ShapeError) (l : Literal) : readArray uneven l =
    ((l.lengths Literal.maxDimensions).mapError fun _ => .shape uneven) >>= fun lengths =>
      l.atoms.mapM (readAtom uneven) >>= fun entries => .ok (lengths, entries.toArray) := rfl

lemma readAtom_eq_ok_iff {x : Float32} : readAtom uneven l = .ok x ↔ l.Converts x := by
  rw [readAtom, Literal.converts_iff]
  split
  case h_1 y hy => simp [hy]
  all_goals
    rename_i hy
    simp [hy]

lemma readArray_eq_ok_iff : readArray uneven l = .ok (lengths, entries) ↔
    l.shape? = some lengths ∧ lengths.length ≤ Literal.maxDimensions ∧
      List.Forall₂ Converts l.atoms entries.toList := by
  simp only [readArray_eq_bind, bind_eq_ok_iff, mapError_eq_ok_iff, mapM_eq_ok_iff,
    readAtom_eq_ok_iff, Literal.lengths_eq_ok_iff, Except.ok.injEq, Prod.mk.injEq]
  constructor
  · rintro ⟨_, ⟨hshape, hlimit⟩, _, hatoms, rfl, rfl⟩
    exact ⟨hshape, hlimit, hatoms⟩
  · rintro ⟨hshape, hlimit, hatoms⟩
    exact ⟨lengths, ⟨hshape, hlimit⟩, entries.toList, hatoms, rfl, rfl⟩

/-- What is read as an array with two lengths arranges atoms in rows. -/
lemma readArray_eq_rows_iff {rows cols : ℕ} : readArray uneven l = .ok ([rows, cols], entries) ↔
    ∃ as, l.Arranges .matrix ⟨rows, cols⟩ as ∧ List.Forall₂ Converts as entries.toList := by
  rw [readArray_eq_ok_iff, Literal.shape?_eq_rows_iff]
  constructor
  · rintro ⟨⟨lists, rfl, hne, rfl, hcols, hatoms⟩, -, hentries⟩
    rw [Literal.atoms_rows hatoms] at hentries
    exact ⟨_, .rows hne hcols, hentries⟩
  · rintro ⟨_, harranges, hentries⟩
    cases harranges with
    | @rows lists _ hne hcols =>
      have hatoms : ∀ row ∈ lists, ∀ a ∈ row, a.IsAtom := fun row hrow a ha =>
        Literal.isAtom_of_forall₂ hentries a (List.mem_flatten_of_mem hrow ha)
      rw [Literal.atoms_rows hatoms]
      exact ⟨⟨lists, rfl, hne, rfl, hcols, hatoms⟩, by simp [Literal.maxDimensions], hentries⟩

/-- What is read as an array with one length, or with a second length of one, arranges atoms in a
column. -/
lemma readArray_eq_column_iff {rows : ℕ} :
    (readArray uneven l = .ok ([rows], entries) ∨ readArray uneven l = .ok ([rows, 1], entries)) ↔
      ∃ as, l.Arranges .vector ⟨rows, 1⟩ as ∧ List.Forall₂ Converts as entries.toList := by
  constructor
  · rintro (h | h)
    · obtain ⟨hshape, -, hentries⟩ := readArray_eq_ok_iff.mp h
      obtain ⟨as, rfl, rfl, hatoms⟩ := Literal.shape?_eq_flat_iff.mp hshape
      rw [Literal.atoms_list hatoms] at hentries
      exact ⟨as, .flat as, hentries⟩
    · obtain ⟨as, harranges, hentries⟩ := readArray_eq_rows_iff.mp h
      obtain ⟨hne, rfl, rfl⟩ := Literal.arranges_oneColumn_iff.mp harranges
      exact ⟨as, .column hne, hentries⟩
  · rintro ⟨as, harranges, hentries⟩
    cases harranges with
    | flat =>
      -- members that convert are atoms, so the list is not nested
      have hatoms := Literal.isAtom_of_forall₂ hentries
      left
      rw [readArray_eq_ok_iff, Literal.shape?_eq_flat_iff, Literal.atoms_list hatoms]
      exact ⟨⟨as, rfl, rfl, hatoms⟩, by simp [Literal.maxDimensions], hentries⟩
    | column hne =>
      right
      rw [readArray_eq_rows_iff]
      exact ⟨as, Literal.arranges_oneColumn_iff.mpr ⟨hne, rfl, rfl⟩, hentries⟩

end Grid

/-! ### Entries in order -/

namespace Literal

/-- A literal writes a matrix or vector when it arranges atoms in the shape of it, and these convert
to its entries, in order. -/
def Writes (kind : Kind) (l : Literal) (A : Grid Float32) : Prop :=
  ∃ as, l.Arranges kind A.shape as ∧ List.Forall₂ Converts as A.entries

lemma Arranges.length_eq {kind : Kind} (h : l.Arranges kind s as) :
    as.length = s.rows * s.cols := by
  cases h with
  | @rows rows n _ hlengths =>
    have hmap : rows.map List.length = List.replicate rows.length n := by
      rw [List.eq_replicate_iff]
      simpa using hlengths
    rw [List.length_flatten, hmap, List.sum_replicate, smul_eq_mul]
  | flat => simp
  | column => simp

lemma Arranges.cols_eq_one (h : l.Arranges .vector s as) : s.cols = 1 := by
  cases h <;> rfl

lemma writes_ofEntries {kind : Kind} {rows cols : ℕ} (harranges : l.Arranges kind ⟨rows, cols⟩ as)
    (hentries : List.Forall₂ Converts as entries.toList) :
    l.Writes kind (Grid.ofEntries rows cols entries) := by
  have hsize : entries.size = rows * cols := by
    rw [← Array.length_toList, ← hentries.length_eq, harranges.length_eq]
  exact ⟨as, harranges, by rwa [Grid.entries_ofEntries hsize]⟩

lemma writes_of_readArray_rows {rows cols : ℕ}
    (h : Grid.readArray uneven l = .ok ([rows, cols], entries)) :
    l.Writes .matrix (Grid.ofEntries rows cols entries) := by
  obtain ⟨as, harranges, hentries⟩ := Grid.readArray_eq_rows_iff.mp h
  exact writes_ofEntries harranges hentries

lemma writes_of_readArray_column {rows : ℕ}
    (h : Grid.readArray uneven l = .ok ([rows], entries) ∨
      Grid.readArray uneven l = .ok ([rows, 1], entries)) :
    l.Writes .vector (Grid.ofEntries rows 1 entries) := by
  obtain ⟨as, harranges, hentries⟩ := Grid.readArray_eq_column_iff.mp h
  exact writes_ofEntries harranges hentries

variable {A : Grid Float32}

/-- A matrix is read back from the literals that write it. -/
lemma Writes.readArray_rows (h : l.Writes .matrix A) (uneven : ShapeError) :
    Grid.readArray uneven l = .ok ([A.rows, A.cols], A.entries.toArray) :=
  Grid.readArray_eq_rows_iff.mpr h

lemma Writes.cols_eq_one (h : l.Writes .vector A) : A.cols = 1 := by
  obtain ⟨as, harranges, -⟩ := h
  exact harranges.cols_eq_one

/-- A vector is read back from the literals that write it. -/
lemma Writes.readArray_column (h : l.Writes .vector A) (uneven : ShapeError) :
    Grid.readArray uneven l = .ok ([A.rows], A.entries.toArray) ∨
      Grid.readArray uneven l = .ok ([A.rows, 1], A.entries.toArray) := by
  have hshape : A.shape = ⟨A.rows, 1⟩ := by rw [Grid.shape, h.cols_eq_one]
  rw [Grid.readArray_eq_column_iff, ← hshape]
  exact h

lemma Writes.ofEntries_column (h : l.Writes .vector A) :
    Grid.ofEntries A.rows 1 A.entries.toArray = A := by
  rw [← h.cols_eq_one, Grid.ofEntries_entries]

end Literal

end Workforce
