import Workforce.Proofs.Number.Equality
import Workforce.Proofs.Workspace.Construction
import Workforce.Proofs.Workspace.Program

/-!
# Comparing with literals

A literal that is stored among the objects is read back as it was. So a matrix or vector equals a
literal exactly when the literal writes one of the same class and shape whose entries are the same
numbers.
-/

namespace Workforce

/-! ### Stored literals -/

namespace Workspace

variable {w w' : Workspace} {l : Literal}

lemma store_list (w : Workspace) (ds : List Draft) :
    w.store (.list ds) = (w.storeAll ds).2.push (.list (w.storeAll ds).1) := by
  rw [store]

lemma store_table (w : Workspace) (fields : List (Literal × Draft)) :
    w.store (.table fields) = (w.storeFields fields).2.push (.table (w.storeFields fields).1) := by
  rw [store]

lemma storeAll_cons (w : Workspace) (d : Draft) (ds : List Draft) : w.storeAll (d :: ds) =
    ((w.store d).1 :: ((w.store d).2.storeAll ds).1, ((w.store d).2.storeAll ds).2) := by
  rw [storeAll]

lemma storeFields_cons (w : Workspace) (key : Literal) (d : Draft)
    (fields : List (Literal × Draft)) :
    w.storeFields ((key, d) :: fields) =
      ((key, (w.store d).1) :: ((w.store d).2.storeFields fields).1,
        ((w.store d).2.storeFields fields).2) := by
  rw [storeFields]

lemma size_push (w : Workspace) (o : Object) :
    (w.push o).2.objects.size = w.objects.size + 1 := by
  simp [push]

lemma getElem?_push {o : Object} (h : (w.push o).2.Extends w') :
    w'.objects[w.objects.size]? = some o :=
  h.getElem?_eq_some (by simp [push])

lemma expand_push_list {vs : List Value} (h : (w.push (.list vs)).2.Extends w') (fuel : ℕ) :
    w'.expand (fuel + 1) (w.push (.list vs)).1 =
      .list w.objects.size (vs.map (w'.expand fuel)) := by
  rw [push, expand, getElem?_push h]

lemma expand_push_table {fields : List (Literal × Value)}
    (h : (w.push (.table fields)).2.Extends w') (fuel : ℕ) :
    w'.expand (fuel + 1) (w.push (.table fields)).1 =
      .table w.objects.size (fields.map fun (key, v) => (key, w'.expand fuel v)) := by
  rw [push, expand, getElem?_push h]

mutual

/-- A literal is read back from any workspace that keeps its objects: an object is stored after the
ones that it holds, so its depth is at most the number of objects that were added. -/
lemma literal_expand_store (w : Workspace) (l : Literal) {fuel : ℕ}
    (h : (w.store (.ofLiteral l)).2.Extends w')
    (hfuel : (w.store (.ofLiteral l)).2.objects.size ≤ w.objects.size + fuel) :
    (w'.expand fuel (w.store (.ofLiteral l)).1).literal = l := by
  match l with
  | .null | .number q | .text s => simp [Draft.ofLiteral, store, expand, Content.literal]
  | .list ls =>
    rw [Draft.ofLiteral, store_list] at h hfuel ⊢
    rw [size_push] at hfuel
    have hext := extends_storeAll w (Draft.ofLiterals ls)
    have hsize := hext.size_le
    obtain ⟨fuel, rfl⟩ := Nat.exists_eq_add_one_of_ne_zero (n := fuel) (by omega)
    rw [expand_push_list h, Content.literal,
      literals_expand_storeAll w ls ((extends_push _ _).trans h) (by omega)]
  | .table fields =>
    rw [Draft.ofLiteral, store_table] at h hfuel ⊢
    rw [size_push] at hfuel
    have hext := extends_storeFields w (Draft.ofFields fields)
    have hsize := hext.size_le
    obtain ⟨fuel, rfl⟩ := Nat.exists_eq_add_one_of_ne_zero (n := fuel) (by omega)
    rw [expand_push_table h, Content.literal,
      literalFields_expand_storeFields w fields ((extends_push _ _).trans h) (by omega)]

lemma literals_expand_storeAll (w : Workspace) (ls : List Literal) {fuel : ℕ}
    (h : (w.storeAll (Draft.ofLiterals ls)).2.Extends w')
    (hfuel : (w.storeAll (Draft.ofLiterals ls)).2.objects.size ≤ w.objects.size + fuel) :
    Content.literals ((w.storeAll (Draft.ofLiterals ls)).1.map (w'.expand fuel)) = ls := by
  match ls with
  | [] => simp [Draft.ofLiterals, storeAll, Content.literals]
  | l :: ls =>
    rw [Draft.ofLiterals, storeAll_cons] at h hfuel ⊢
    dsimp only at hfuel
    have hext := extends_storeAll (w.store (.ofLiteral l)).2 (Draft.ofLiterals ls)
    have hsize := (extends_store w (.ofLiteral l)).size_le
    have hsize' := hext.size_le
    rw [List.map_cons, Content.literals, literal_expand_store w l (hext.trans h) (by omega),
      literals_expand_storeAll _ ls h (by omega)]

lemma literalFields_expand_storeFields (w : Workspace) (fields : List (String × Literal)) {fuel : ℕ}
    (h : (w.storeFields (Draft.ofFields fields)).2.Extends w')
    (hfuel : (w.storeFields (Draft.ofFields fields)).2.objects.size ≤ w.objects.size + fuel) :
    Content.literalFields ((w.storeFields (Draft.ofFields fields)).1.map
      fun (key, v) => (key, w'.expand fuel v)) = fields := by
  match fields with
  | [] => simp [Draft.ofFields, storeFields, Content.literalFields]
  | (name, l) :: fields =>
    rw [Draft.ofFields, storeFields_cons] at h hfuel ⊢
    dsimp only at hfuel
    have hext := extends_storeFields (w.store (.ofLiteral l)).2 (Draft.ofFields fields)
    have hsize := (extends_store w (.ofLiteral l)).size_le
    have hsize' := hext.size_le
    rw [List.map_cons, Content.literalFields, literal_expand_store w l (hext.trans h) (by omega),
      literalFields_expand_storeFields _ fields h (by omega)]
    rfl

end

/-- A literal is read after it is stored. -/
lemma run_operand_literal (w : Workspace) (l : Literal) : (operand (.literal l)).run w =
    .ok ((w.store (.ofLiteral l)).2.contentOf (w.store (.ofLiteral l)).1,
      (w.store (.ofLiteral l)).2) :=
  operand_literal_eq_ok_iff.mpr ⟨rfl, rfl⟩

lemma literal_contentOf_store (w : Workspace) (l : Literal) :
    ((w.store (.ofLiteral l)).2.contentOf (w.store (.ofLiteral l)).1).literal = l :=
  literal_expand_store w l (.refl _) (by omega)

/-- A stored literal is no matrix. -/
lemma contentOf_store_ne_grid (w : Workspace) (l : Literal) (id : ℕ) (kind : Kind)
    (A : Grid Float32) :
    (w.store (.ofLiteral l)).2.contentOf (w.store (.ofLiteral l)).1 ≠ .grid id kind A := by
  cases l with
  | null | number q | text s => simp [Draft.ofLiteral, store]
  | list ls =>
    rw [Draft.ofLiteral, store_list, contentOf, size_push, expand_push_list (.refl _)]
    intro h
    cases h
  | table fields =>
    rw [Draft.ofLiteral, store_table, contentOf, size_push, expand_push_table (.refl _)]
    intro h
    cases h

variable {s : String} {id : ℕ} {kind : Kind} {A : Grid Float32}

lemma contentsEqual_grid (id : ℕ) {c : Content} (hc : ∀ id kind A, c ≠ .grid id kind A) :
    contentsEqual (.grid id kind A) c = A.equalsLiteral (kind == .vector) c.literal := by
  cases c with
  | grid id' kind' A' => exact absurd rfl (hc id' kind' A')
  | atom | line | list | table => rfl

/-- A comparison of a matrix with a literal answers with the value of `Grid.equalsLiteral`. -/
lemma run_equal_literal {b negated : Bool} {target : Option String}
    (hs : w.lookup s = some (.object id)) (hA : w.grid? id = some (kind, A))
    (hb : A.equalsLiteral (kind == .vector) l = .ok b) :
    (w.run ⟨.equal negated (.name s) (.literal l), target⟩).1 =
      .ok (.atom (.number (.flag (b != negated)))) := by
  have hname : (operand (.name s)).run w = .ok (.grid id kind A, w) :=
    operand_name_eq_ok_iff.mpr ⟨_, hs, contentOf_grid hA, rfl⟩
  have heval : (eval (.equal negated (.name s) (.literal l))).run w =
      .ok (decided (b != negated), (w.store (.ofLiteral l)).2) := by
    rw [eval, run_bind_eq_ok_iff]
    refine ⟨_, _, hname, ?_⟩
    rw [run_bind_eq_ok_iff]
    refine ⟨_, _, run_operand_literal w l, ?_⟩
    rw [run_liftM_eq_ok_iff, evalEqual, contentsEqual_grid id (contentOf_store_ne_grid w l),
      literal_contentOf_store, hb]
    exact ⟨rfl, rfl⟩
  rw [run_of_ok heval]
  rfl

end Workspace

/-! ### What a literal writes -/

lemma list_beq_iff {β : Type} [BEq β] {as bs : List β} :
    (as == bs) = true ↔ List.Forall₂ (fun a b => (a == b) = true) as bs := by
  induction as generalizing bs with
  | nil => cases bs <;> simp
  | cons a as ih => cases bs <;> simp [ih]

lemma Literal.exists_of_toElement_eq_tooLarge {l : Literal} (h : l.toElement = .error .tooLarge) :
    ∃ n : ℤ, l = .whole n ∧ (Quantity.whole n).fits = false := by
  cases l with
  | number q =>
    rw [toElement, Quantity.toFloat?] at h
    split_ifs at h with hfits
    cases q with
    | whole n => exact ⟨n, rfl, Bool.eq_false_iff.mpr hfits⟩
    | flag | real => exact absurd rfl hfits
  | text s =>
    rw [toElement] at h
    split at h <;> cases h
  | null | list | table => cases h

namespace Grid

variable {l : Literal} {uneven : ShapeError} {A B : Grid Float32} {kind : Kind}

/-- An integer out of range is the only reason for the error that says so. -/
lemma exists_of_readArray_eq_tooLarge (h : readArray uneven l = .error (.element .tooLarge)) :
    ∃ n : ℤ, .whole n ∈ l.atoms ∧ (Quantity.whole n).fits = false := by
  rw [readArray_eq_bind, bind_eq_error_iff] at h
  rcases h with hlengths | ⟨lengths, -, h⟩
  · cases hl : l.lengths Literal.maxDimensions <;> rw [hl] at hlengths <;> cases hlengths
  · rcases bind_eq_error_iff.mp h with hatoms | ⟨_, -, h⟩
    · obtain ⟨atom, hatom, he⟩ := exists_mem_of_mapM_eq_error hatoms
      rw [readAtom] at he
      split at he
      case h_4 e _ _ helement =>
        cases he
        obtain ⟨n, rfl, hn⟩ := Literal.exists_of_toElement_eq_tooLarge helement
        exact ⟨n, hatom, hn⟩
      all_goals cases he
    · cases h

lemma beq_iff : A.beq B = true ↔
    A.shape = B.shape ∧ List.Forall₂ Single.SameNumber A.entries B.entries := by
  rw [beq, Bool.and_eq_true, beq_iff_eq, list_beq_iff]
  simp only [Single.beq_iff]

/-- Comparing with a literal is comparing with what the literal writes, unless an integer that is
out of range is an error. -/
lemma equalsLiteral_eq_ok_of_ne (hA : A.Fits kind)
    (hl : readArray .unevenRows l ≠ .error (.element .tooLarge)) :
    ∃ b, A.equalsLiteral (kind == .vector) l = .ok b ∧
      (b = true ↔ ∃ B, l.Writes kind B ∧ A.beq B = true) := by
  -- a column of lists of one member is read with two lengths, as the rows of a matrix are
  have hwrites {B} (hB : l.Writes kind B) :
      readArray .unevenRows l = .ok ([B.rows, B.cols], B.entries.toArray) ∨
        kind = .vector ∧ readArray .unevenRows l = .ok ([B.rows], B.entries.toArray) ∧
          ofEntries B.rows 1 B.entries.toArray = B := by
    cases kind with
    | matrix => exact .inl (hB.readArray_rows _)
    | vector =>
      rcases hB.readArray_column .unevenRows with h | h
      · exact .inr ⟨rfl, h, hB.ofEntries_column⟩
      · rw [hB.cols_eq_one]
        exact .inl h
  rw [equalsLiteral]
  split
  case h_1 rows cols entries hread =>
    refine ⟨_, rfl, fun hbeq => ?_, ?_⟩
    · cases kind with
      | matrix => exact ⟨_, Literal.writes_of_readArray_rows hread, hbeq⟩
      | vector =>
        -- a vector equals no matrix of another shape, so what is read is a column
        obtain rfl : cols = 1 := by
          rw [← hA rfl]
          exact congrArg Shape.cols (beq_iff.mp hbeq).1.symm
        exact ⟨_, Literal.writes_of_readArray_column (.inr hread), hbeq⟩
    · rintro ⟨B, hB, hbeq⟩
      rcases hwrites hB with hreadB | ⟨-, hreadB, -⟩
      · cases hread.symm.trans hreadB
        rwa [ofEntries_entries]
      · cases hread.symm.trans hreadB
  case h_2 rows entries hread =>
    refine ⟨_, rfl, fun h => ?_, ?_⟩
    · rw [Bool.and_eq_true] at h
      obtain ⟨hkind, hbeq⟩ := h
      obtain rfl : kind = .vector := by simpa using hkind
      exact ⟨_, Literal.writes_of_readArray_column (.inl hread), hbeq⟩
    · rintro ⟨B, hB, hbeq⟩
      rcases hwrites hB with hreadB | ⟨rfl, hreadB, hentries⟩
      · cases hread.symm.trans hreadB
      · cases hread.symm.trans hreadB
        rw [hentries, hbeq]
        rfl
  case h_3 p hrows hcolumn hread =>
    refine ⟨false, rfl, iff_of_false nofun ?_⟩
    rintro ⟨B, hB, -⟩
    rcases hwrites hB with hreadB | ⟨-, hreadB, -⟩
    · exact hrows _ _ _ (Except.ok.inj (hread.symm.trans hreadB))
    · exact hcolumn _ _ (Except.ok.inj (hread.symm.trans hreadB))
  case h_4 hread => exact absurd hread hl
  case h_5 hread =>
    refine ⟨false, rfl, iff_of_false nofun ?_⟩
    rintro ⟨B, hB, -⟩
    rcases hwrites hB with hreadB | ⟨-, hreadB, -⟩ <;> cases hread.symm.trans hreadB

lemma equalsLiteral_eq_ok (hA : A.Fits kind)
    (hl : ∀ n : ℤ, .whole n ∈ l.atoms → (Quantity.whole n).fits = true) :
    ∃ b, A.equalsLiteral (kind == .vector) l = .ok b ∧
      (b = true ↔ ∃ B, l.Writes kind B ∧ A.beq B = true) := by
  refine equalsLiteral_eq_ok_of_ne hA fun hread => ?_
  obtain ⟨n, hn, hfits⟩ := exists_of_readArray_eq_tooLarge hread
  rw [hl n hn] at hfits
  cases hfits

end Grid

namespace Workspace

variable {w : Workspace} {s : String} {id : ℕ} {kind : Kind} {A : Grid Float32} {l : Literal}

/-- A matrix or vector equals a literal whose integers are in range exactly when its class can be
built from the literal, with its shape and with the same numbers as entries. Otherwise it does not
equal the literal, and the comparison for inequality always has the other answer. -/
theorem equal_literal_iff_build (hs : w.lookup s = some (.object id))
    (hA : w.grid? id = some (kind, A)) (hfits : A.Fits kind)
    (hl : ∀ n : ℤ, .whole n ∈ l.atoms → (Quantity.whole n).fits = true) :
    ∃ b, (b = true ↔ ∃ B, evalBuild kind l none = .ok (.answer (.grid kind B)) ∧
        B.shape = A.shape ∧ List.Forall₂ Single.SameNumber A.entries B.entries) ∧
      ∀ negated target, (w.run ⟨.equal negated (.name s) (.literal l), target⟩).1 =
        .ok (.atom (.number (.flag (b != negated)))) := by
  obtain ⟨b, hb, hiff⟩ := Grid.equalsLiteral_eq_ok hfits hl
  refine ⟨b, ?_, fun negated target => run_equal_literal hs hA hb⟩
  simp only [hiff, evalBuild_grid_iff, Grid.beq_iff, eq_comm (a := A.shape)]

/-- Two zeros, of which one has a minus sign and the other is a truth value. -/
def twoZeros : List Literal := [.real (-0.0), .number (.flag false)]

/-- A vector of zeros equals the column of both. -/
theorem equal_literal_iff_build_twoZeros :
    let w := empty.runAll [⟨.zeros (.vector (.whole 2)), some "v"⟩]
    let l := Literal.list (twoZeros.map fun a => .list [a])
    w.lookup "v" = some (.object 0) ∧
      (w.run ⟨.equal false (.name "v") (.literal l), none⟩).1 = .ok (.atom (.number (.flag true))) ∧
      (w.run ⟨.equal true (.name "v") (.literal l), none⟩).1 =
        .ok (.atom (.number (.flag false))) := by
  intro w l
  have hv : w.lookup "v" = some (.object 0) := rfl
  have hzero : w.grid? 0 = some (.vector, ⟨(Mat.zero : Mat Float32 2 1)⟩) := rfl
  have hrange : ∀ n : ℤ, .whole n ∈ l.atoms → (Quantity.whole n).fits = true := by
    simp [l, twoZeros, Literal.atoms, Literal.atomsOf]
  have harranges : l.Arranges .vector ⟨2, 1⟩ twoZeros := .column (List.cons_ne_nil _ _)
  have hentries : List.Forall₂ Literal.Converts twoZeros #[narrow (-0.0), narrow 0].toList :=
    .cons (.number rfl) (.cons (.number rfl) .nil)
  have hbuild := evalBuild_grid_iff.mpr (Literal.writes_ofEntries harranges hentries)
  obtain ⟨b, hb, hrun⟩ := equal_literal_iff_build hv hzero (fun _ => rfl) hrange
  have htrue : b = true := by
    refine hb.mpr ⟨_, hbuild, Eq.refl (⟨2, 1⟩ : Shape), ?_⟩
    exact .cons ⟨.rational 0, rfl, rfl⟩ (.cons ⟨.rational 0, rfl, rfl⟩ .nil)
  rw [hrun, hrun, htrue]
  exact ⟨hv, rfl, rfl⟩

end Workspace

end Workforce
