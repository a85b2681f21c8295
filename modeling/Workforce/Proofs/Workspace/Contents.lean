import Workforce.Proofs.Number.RealQuantity
import Workforce.Proofs.Workspace.WellFormed

/-!
# Operands in well-formed workspaces

The content of a value tells what the workspace holds (`Content.Held`), and the evaluation of an
operand leads from a well-formed workspace to one, where its content is held. A literal is made of
new objects, a name stands for what it stood for.
-/

namespace Workforce

/-- What a content tells of a workspace is so. -/
inductive Content.Held (w : Workspace) : Content → Prop where
  | atom (l : Literal) : Held w (.atom l)
  | grid {id : ℕ} {kind : Kind} {A : Grid Float32} (grid?_eq : w.grid? id = some (kind, A)) :
      Held w (.grid id kind A)
  | line {id : ℕ} {view : Line} (getElem?_eq : w.objects[id]? = some (.line view))
      (entries : List Float32) : Held w (.line id view entries)
  | list {id : ℕ} {items : List Content} (lt_size : id < w.objects.size)
      (held : ∀ c ∈ items, Held w c) : Held w (.list id items)
  | table {id : ℕ} {fields : List (Literal × Content)} (lt_size : id < w.objects.size)
      (held : ∀ p ∈ fields, Held w p.2) : Held w (.table id fields)

namespace Workspace

variable {w w' : Workspace} {id : ℕ} {v : Value} {c t u : Content} {d : Draft} {l : Literal}
variable {kind : Kind} {A B : Grid Float32}

/-! ### Contents -/

lemma exists_contentOf_eq_expand (hid : id < w.objects.size) :
    ∃ fuel, w.contentOf (.object id) = w.expand (fuel + 1) (.object id) := by
  obtain ⟨fuel, hfuel⟩ := Nat.exists_eq_add_one_of_ne_zero (Nat.ne_zero_of_lt hid)
  exact ⟨fuel, by rw [contentOf, hfuel]⟩

lemma contentOf_grid (hA : w.grid? id = some (kind, A)) :
    w.contentOf (.object id) = .grid id kind A := by
  have ho := grid?_eq_some_iff.mp hA
  obtain ⟨fuel, hfuel⟩ := exists_contentOf_eq_expand (lt_size_of_getElem? ho)
  rw [hfuel, expand, ho]

lemma contentOf_line {view : Line} (ho : w.objects[id]? = some (.line view)) :
    w.contentOf (.object id) = .line id view (w.entriesOf view) := by
  obtain ⟨fuel, hfuel⟩ := exists_contentOf_eq_expand (lt_size_of_getElem? ho)
  rw [hfuel, expand, ho]

lemma held_expand (hw : w.WellFormed) (hv : v.IsIn w) (fuel : ℕ) : (w.expand fuel v).Held w := by
  -- what runs out of fuel is an atom, which is held anywhere
  induction fuel generalizing v with
  | zero => cases v <;> exact .atom _
  | succ fuel ih =>
    cases v with
    | atom l => exact .atom l
    | object id =>
      rw [expand]
      split
      case h_1 kind A ho => exact .grid (grid?_eq_some_iff.mpr ho)
      case h_2 view ho => exact .line ho _
      case h_3 items ho =>
        refine .list hv fun c hc => ?_
        obtain ⟨u, hu, rfl⟩ := List.mem_map.mp hc
        exact ih (hw.objects id _ ho u hu)
      case h_4 fields ho =>
        refine .table hv fun p hp => ?_
        obtain ⟨q, hq, rfl⟩ := List.mem_map.mp hp
        exact ih (hw.objects id _ ho q hq)
      case h_5 => exact .atom _

lemma held_contentOf (hw : w.WellFormed) (hv : v.IsIn w) : (w.contentOf v).Held w :=
  held_expand hw hv _

lemma Extends.held (h : w.Extends w') (hc : c.Held w) : c.Held w' := by
  induction hc with
  | atom l => exact .atom l
  | grid hA => exact .grid (h.grid?_eq_some hA)
  | line hview entries => exact .line (h.getElem?_eq_some hview) entries
  | list hid _ ih => exact .list (hid.trans_le h.size_le) ih
  | table hid _ ih => exact .table (hid.trans_le h.size_le) ih

lemma isIn_value (hc : c.Held w) : c.value.IsIn w := by
  cases hc with
  | atom l => trivial
  | grid hA => exact lt_size_of_getElem? (grid?_eq_some_iff.mp hA)
  | line hview _ => exact lt_size_of_getElem? hview
  | list hid _ => exact hid
  | table hid _ => exact hid

lemma sound_draft (hc : c.Held w) : c.draft.Sound w := .value (isIn_value hc)

lemma WellFormed.fits (hw : w.WellFormed) (hA : w.grid? id = some (kind, A)) : A.Fits kind :=
  hw.objects id _ (grid?_eq_some_iff.mp hA)

/-! ### Drafts of literals -/

mutual

lemma sound_ofLiteral (w : Workspace) (l : Literal) : (Draft.ofLiteral l).Sound w := by
  match l with
  | .null => exact .value trivial
  | .number q => exact .value trivial
  | .text s => exact .value trivial
  | .list ls => exact .list (sound_ofLiterals w ls)
  | .table fields => exact .table (sound_ofFields w fields)

lemma sound_ofLiterals (w : Workspace) (ls : List Literal) :
    ∀ d ∈ Draft.ofLiterals ls, d.Sound w := by
  match ls with
  | [] => simp [Draft.ofLiterals]
  | l :: ls => exact List.forall_mem_cons.mpr ⟨sound_ofLiteral w l, sound_ofLiterals w ls⟩

lemma sound_ofFields (w : Workspace) (fields : List (String × Literal)) :
    ∀ p ∈ Draft.ofFields fields, p.2.Sound w := by
  match fields with
  | [] => simp [Draft.ofFields]
  | (name, l) :: fields =>
    exact List.forall_mem_cons.mpr ⟨sound_ofLiteral w l, sound_ofFields w fields⟩

end

lemma isNew_ofLiteral (l : Literal) : IsNew (.ofLiteral l) := by
  cases l <;> trivial

/-! ### Operands -/

/-- A name is read without a change. -/
lemma operand_name_eq_ok_iff {s : String} : (operand (.name s)).run w = .ok (c, w') ↔
    ∃ v, w.lookup s = some v ∧ w.contentOf v = c ∧ w = w' := by
  cases hv : w.lookup s with
  | none =>
    have hrun : (operand (.name s)).run w = .error (.unknownName s) := by
      simp [operand, hv]
      rfl
    simp [hrun]
  | some v =>
    have hrun : (operand (.name s)).run w = .ok (w.contentOf v, w) := by
      simp [operand, hv]
    simp [hrun]

/-- A literal is stored before it is read. -/
lemma operand_literal_eq_ok_iff : (operand (.literal l)).run w = .ok (c, w') ↔
    w'.contentOf (w.store (.ofLiteral l)).1 = c ∧ (w.store (.ofLiteral l)).2 = w' := by
  have hrun : (operand (.literal l)).run w =
      .ok ((w.store (.ofLiteral l)).2.contentOf (w.store (.ofLiteral l)).1,
        (w.store (.ofLiteral l)).2) := rfl
  rw [hrun, Except.ok.injEq, Prod.mk.injEq]
  exact and_congr_left fun h => by rw [h]

lemma isIn_of_lookup (hw : w.WellFormed) {s : String} (h : w.lookup s = some v) : v.IsIn w := by
  obtain ⟨p, hp, rfl⟩ := Option.map_eq_some_iff.mp h
  exact hw.names p (List.mem_of_find?_eq_some hp)

lemma ensures_operand (hw : w.WellFormed) (x : Operand) :
    Ensures (operand x) w fun w' c => w'.WellFormed ∧ c.Held w' := by
  intro c w' hrun
  cases x with
  | name s =>
    obtain ⟨v, hv, rfl, rfl⟩ := operand_name_eq_ok_iff.mp hrun
    exact ⟨.refl w, hw, held_contentOf hw (isIn_of_lookup hw hv)⟩
  | literal l =>
    obtain ⟨rfl, rfl⟩ := operand_literal_eq_ok_iff.mp hrun
    obtain ⟨hw', hv⟩ := hw.store (sound_ofLiteral w l)
    exact ⟨extends_store .., hw', held_contentOf hw' hv⟩

lemma ensures_gridOperand (hw : w.WellFormed) (member : String) (x : Operand) :
    Ensures (gridOperand member x) w fun w' p =>
      w'.WellFormed ∧ w'.grid? p.1 = some (p.2.1, p.2.2) := by
  refine ensures_bind (ensures_operand hw x) fun w' c _ ⟨hw', hc⟩ => ?_
  cases hc with
  | grid hA => exact ensures_pure ⟨hw', hA⟩
  | atom | line | list | table => exact ensures_throw _

end Workspace

end Workforce
