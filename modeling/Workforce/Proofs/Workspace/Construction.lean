import Workforce.Proofs.Literal.Grammar

/-!
# Building from literals

A matrix or vector is built from exactly the literals that write one. When lengths are announced
along with the literal, they have to be those of what it writes.
-/

namespace Workforce

/-- The lengths that are announced of a matrix or vector are its own: there are none, or they are
given as numbers of any kind, both of them for a matrix and the first for a vector. -/
inductive Announces : Kind → Option Literal → Shape → Prop where
  | nothing (kind : Kind) (s : Shape) : Announces kind none s
  | null (kind : Kind) (s : Shape) : Announces kind (some .null) s
  | shape {p q : Quantity} {s : Shape} (rows : p == .whole s.rows) (cols : q == .whole s.cols) :
      Announces .matrix (some (.list [.number p, .number q])) s
  | length {q : Quantity} {s : Shape} (rows : q == .whole s.rows) :
      Announces .vector (some (.number q)) s

variable {l : Literal} {A : Grid Float32} {kind : Kind}

namespace Grid

lemma isLength_iff {n : ℕ} :
    isLength n l = true ↔ ∃ q : Quantity, l = .number q ∧ q == .whole n := by
  cases l <;> simp [isLength]

lemma ofLiteral_eq_ok_iff : ofLiteral l = .ok A ↔ l.Writes .matrix A := by
  constructor
  · intro h
    obtain ⟨⟨lengths, entries⟩, hread, h⟩ := bind_eq_ok_iff.mp h
    dsimp only at h
    split at h
    case h_1 rows cols =>
      cases h
      exact Literal.writes_of_readArray_rows hread
    case h_2 => cases h
  · intro hwrites
    rw [ofLiteral, hwrites.readArray_rows, ok_bind]
    exact congrArg Except.ok A.ofEntries_entries

lemma columnOfLiteral_eq_ok_iff : columnOfLiteral l = .ok A ↔ l.Writes .vector A := by
  -- a column is written flat, or as rows of one atom each
  have hread {rows : ℕ} {entries : Array Float32}
      (hcolumn : readArray .notFlat l = .ok ([rows], entries) ∨
        readArray .notFlat l = .ok ([rows, 1], entries)) :
      columnOfLiteral l = .ok (ofEntries rows 1 entries) := by
    rcases hcolumn with h | h <;>
    · rw [columnOfLiteral, h]
      rfl
  constructor
  · intro h
    have hcolumn : ∃ rows entries, readArray .notFlat l = .ok ([rows], entries) ∨
        readArray .notFlat l = .ok ([rows, 1], entries) := by
      obtain ⟨⟨lengths, entries⟩, hlengths, h⟩ := bind_eq_ok_iff.mp h
      dsimp only at h
      split at h
      case h_1 => exact ⟨_, _, .inl hlengths⟩
      case h_2 => exact ⟨_, _, .inr hlengths⟩
      case h_3 => cases h
    obtain ⟨rows, entries, hcolumn⟩ := hcolumn
    cases h.symm.trans (hread hcolumn)
    exact Literal.writes_of_readArray_column hcolumn
  · intro hwrites
    rw [hread (hwrites.readArray_column _), hwrites.ofEntries_column]

lemma hasShape_iff {lengths : List Literal} : A.hasShape lengths = true ↔ ∃ p q : Quantity,
    lengths = [.number p, .number q] ∧ p == .whole A.rows ∧ q == .whole A.cols := by
  constructor
  · intro h
    unfold hasShape at h
    split at h
    case h_1 r c =>
      rw [Bool.and_eq_true, isLength_iff, isLength_iff] at h
      obtain ⟨⟨p, rfl, hp⟩, q, rfl, hq⟩ := h
      exact ⟨p, q, rfl, hp, hq⟩
    case h_2 => cases h
  · rintro ⟨p, q, rfl, hp, hq⟩
    simp [hasShape, isLength, hp, hq]

/-- Texts are no lengths. -/
lemma not_hasShape_map_text {β : Type} {f : β → String} {bs : List β} :
    ¬ A.hasShape (bs.map fun b => .text (f b)) = true := by
  rw [hasShape_iff]
  rintro ⟨p, q, h, -⟩
  obtain ⟨b, -, hb⟩ := List.mem_map.mp (h ▸ List.mem_cons_self : Literal.number p ∈ _)
  cases hb

end Grid

namespace Workspace

variable {expected : Option Literal} {effect : Effect} {s : Shape}

lemma gridOf_eq_ok_iff : gridOf kind l = .ok A ↔ l.Writes kind A := by
  cases kind with
  | matrix => exact mapError_eq_ok_iff.trans Grid.ofLiteral_eq_ok_iff
  | vector => exact mapError_eq_ok_iff.trans Grid.columnOfLiteral_eq_ok_iff

/-- What is announced of a matrix has to be a list of two numbers: the other literals from which
lengths are taken give texts. -/
lemma checkAnnounced_matrix_eq_ok_iff :
    checkAnnounced .matrix A expected = .ok () ↔ Announces .matrix expected A.shape := by
  have hlengths {announced : Literal} {lengths : List Literal} (hnull : announced ≠ .null)
      (h : lengthsOf announced = .ok lengths) :
      checkAnnounced .matrix A (some announced) = .ok () ↔ A.hasShape lengths = true := by
    rw [checkAnnounced]
    · simp only [h, ok_bind]
      split_ifs with hshape <;> simp [hshape]
    · exact hnull
  constructor
  · intro h
    match expected with
    | none => exact .nothing ..
    | some .null => exact .null ..
    | some (.number q) => cases h
    -- a text counts as its characters and a table as its keys, none of which are lengths
    | some (.text t) =>
      rw [hlengths (by simp) rfl] at h
      exact absurd h Grid.not_hasShape_map_text
    | some (.table fields) =>
      rw [hlengths (by simp) rfl] at h
      exact absurd h Grid.not_hasShape_map_text
    | some (.list ls) =>
      rw [hlengths (by simp) rfl, Grid.hasShape_iff] at h
      obtain ⟨p, q, rfl, hp, hq⟩ := h
      exact .shape hp hq
  · intro h
    cases h with
    | nothing => rfl
    | null => rfl
    | @shape p q _ hrows hcols =>
      rw [hlengths (by simp) rfl, Grid.hasShape_iff]
      exact ⟨p, q, rfl, hrows, hcols⟩

lemma checkAnnounced_vector_eq_ok_iff :
    checkAnnounced .vector A expected = .ok () ↔ Announces .vector expected A.shape := by
  constructor
  · intro h
    unfold checkAnnounced at h
    split at h
    case h_1 => exact .nothing ..
    case h_2 => exact .null ..
    case h_3 announced hnull =>
      dsimp only at h
      split_ifs at h with hlength
      obtain ⟨q, rfl, hq⟩ := Grid.isLength_iff.mp hlength
      exact .length hq
  · intro h
    cases h with
    | nothing => rfl
    | null => rfl
    | length hrows => exact if_pos hrows

lemma checkAnnounced_eq_ok_iff :
    checkAnnounced kind A expected = .ok () ↔ Announces kind expected A.shape := by
  cases kind with
  | matrix => exact checkAnnounced_matrix_eq_ok_iff
  | vector => exact checkAnnounced_vector_eq_ok_iff

lemma evalBuild_eq_ok_iff : evalBuild kind l expected = .ok effect ↔
    ∃ A, effect = .answer (.grid kind A) ∧ l.Writes kind A ∧ Announces kind expected A.shape := by
  simp only [evalBuild, bind_eq_ok_iff, gridOf_eq_ok_iff, pure_eq_ok, Except.ok.injEq]
  constructor
  · rintro ⟨A, hwrites, _, hchecked, rfl⟩
    exact ⟨A, rfl, hwrites, checkAnnounced_eq_ok_iff.mp hchecked⟩
  · rintro ⟨A, rfl, hwrites, hannounces⟩
    exact ⟨A, hwrites, (), checkAnnounced_eq_ok_iff.mpr hannounces, rfl⟩

lemma evalBuild_grid_iff : evalBuild kind l none = .ok (.answer (.grid kind A)) ↔
    l.Writes kind A := by
  rw [evalBuild_eq_ok_iff]
  constructor
  · rintro ⟨B, heffect, hwrites, -⟩
    cases heffect
    exact hwrites
  · exact fun hwrites => ⟨A, rfl, hwrites, .nothing ..⟩

/-- A matrix or vector is built from a literal exactly when the literal arranges atoms in rows or in
a column, each of them converts, and the lengths that are announced are those of the arrangement.
The result has the shape of the arrangement, and the converted atoms as entries in their order. -/
theorem evalBuild_accepts (kind : Kind) (l : Literal) (expected : Option Literal) :
    ((∃ effect, evalBuild kind l expected = .ok effect) ↔
      ∃ s as, l.Arranges kind s as ∧ (∀ a ∈ as, ∃ x, a.Converts x) ∧
        Announces kind expected s) ∧
      ∀ effect, evalBuild kind l expected = .ok effect ↔
        ∃ A as, effect = .answer (.grid kind A) ∧ l.Arranges kind A.shape as ∧
          List.Forall₂ Literal.Converts as A.entries ∧ Announces kind expected A.shape := by
  constructor
  · constructor
    -- the shape is that of the converted matrix in one direction, and of the atoms in the other
    · rintro ⟨effect, heffect⟩
      obtain ⟨A, -, ⟨as, harranges, hentries⟩, hannounces⟩ := evalBuild_eq_ok_iff.mp heffect
      exact ⟨A.shape, as, harranges, exists_forall₂_iff.mp ⟨_, hentries⟩, hannounces⟩
    · rintro ⟨s, as, harranges, hconverts, hannounces⟩
      obtain ⟨xs, hentries⟩ := exists_forall₂_iff.mpr hconverts
      have hwrites : l.Writes kind (Grid.ofEntries s.rows s.cols xs.toArray) :=
        Literal.writes_ofEntries harranges hentries
      exact ⟨_, evalBuild_eq_ok_iff.mpr ⟨_, rfl, hwrites, hannounces⟩⟩
  · intro effect
    rw [evalBuild_eq_ok_iff]
    constructor
    · rintro ⟨A, heffect, ⟨as, harranges, hentries⟩, hannounces⟩
      exact ⟨A, as, heffect, harranges, hentries, hannounces⟩
    · rintro ⟨A, as, heffect, harranges, hentries, hannounces⟩
      exact ⟨A, heffect, ⟨as, harranges, hentries⟩, hannounces⟩

end Workspace

end Workforce
