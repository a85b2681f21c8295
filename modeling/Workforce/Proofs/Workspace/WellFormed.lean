import Workforce.Proofs.Workspace.Extension

/-!
# Well-formed workspaces

A workspace is well-formed when every reference in it is to an object that is there, every vector
is one column and every view is of a line that its source has. Objects may change, but what they
are does not (`Like`): a matrix keeps its class and shape and a view its line. So whatever was
sound once stays so, and the effects of commands keep workspaces well-formed.
-/

namespace Workforce

/-- What an object is stays the same: the class and shape of a matrix, and the line of a view. -/
def Object.Like : Object → Object → Prop
  | .grid kind A, o => ∃ B : Grid Float32, o = .grid kind B ∧ B.shape = A.shape
  | .line view, o => o = .line view
  | _, _ => True

namespace Grid

@[simp] lemma shape_set {α : Type} (A : Grid α) (i j : ℕ) (a : α) :
    (A.set i j a).shape = A.shape := by
  rw [set]
  split <;> rfl

lemma cols_eq_of_shape_eq {α : Type} {A B : Grid α} (h : A.shape = B.shape) : A.cols = B.cols :=
  congrArg Shape.cols h

lemma rows_eq_of_shape_eq {α : Type} {A B : Grid α} (h : A.shape = B.shape) : A.rows = B.rows :=
  congrArg Shape.rows h

end Grid

lemma Axis.count_eq_of_shape_eq {A B : Grid Float32} (h : A.shape = B.shape) (axis : Axis) :
    axis.count A = axis.count B := by
  cases axis
  · exact Grid.rows_eq_of_shape_eq h
  · exact Grid.cols_eq_of_shape_eq h

namespace Object

lemma Like.refl (o : Object) : o.Like o := by
  cases o with
  | grid kind A => exact ⟨A, rfl, rfl⟩
  | line view => rfl
  | list items => trivial
  | table fields => trivial

lemma Like.trans {o o' o'' : Object} (h : o.Like o') (h' : o'.Like o'') : o.Like o'' := by
  cases o with
  | grid kind A =>
    obtain ⟨B, rfl, hB⟩ := h
    obtain ⟨C, rfl, hC⟩ := h'
    exact ⟨C, rfl, hC.trans hB⟩
  | line view =>
    cases h
    exact h'
  | list items => trivial
  | table fields => trivial

lemma like_assign (changes : List Change) (o : Object) : o.Like (o.assign changes) := by
  cases o with
  | grid kind A =>
    refine ⟨_, rfl, ?_⟩
    induction changes generalizing A with
    | nil => rfl
    | cons c changes ih => exact (ih _).trans (Grid.shape_set ..)
  | line view => rfl
  | list items => trivial
  | table fields => trivial

lemma like_putItem (place : ℕ) (v : Value) (o : Object) : o.Like (o.putItem place v) := by
  cases o with
  | list items => trivial
  | grid kind A => exact .refl _
  | line view => exact .refl _
  | table fields => trivial

lemma like_putField (key : Literal) (v : Value) (o : Object) : o.Like (o.putField key v) := by
  cases o with
  | table fields => trivial
  | grid kind A => exact .refl _
  | line view => exact .refl _
  | list items => trivial

end Object

namespace Workspace

variable {w w' w'' : Workspace} {id : ℕ} {v : Value} {o : Object} {d : Draft}

/-- All objects of `w` are still there, and are what they were. -/
def Retains (w w' : Workspace) : Prop :=
  ∀ (id : ℕ) (o : Object), w.objects[id]? = some o → ∃ o', w'.objects[id]? = some o' ∧ o.Like o'

namespace Retains

lemma refl (w : Workspace) : w.Retains w := fun _ o ho => ⟨o, ho, .refl o⟩

lemma trans (h : w.Retains w') (h' : w'.Retains w'') : w.Retains w'' := by
  intro id o ho
  obtain ⟨o', ho', hlike⟩ := h id o ho
  obtain ⟨o'', ho'', hlike'⟩ := h' id o' ho'
  exact ⟨o'', ho'', hlike.trans hlike'⟩

lemma lt_size (h : w.Retains w') (hid : id < w.objects.size) : id < w'.objects.size := by
  obtain ⟨o', ho', -⟩ := h id _ (Array.getElem?_eq_getElem hid)
  exact lt_size_of_getElem? ho'

lemma grid? (h : w.Retains w') {kind : Kind} {A : Grid Float32}
    (hA : w.grid? id = some (kind, A)) :
    ∃ B, w'.grid? id = some (kind, B) ∧ B.shape = A.shape := by
  obtain ⟨_, ho', B, rfl, hB⟩ := h id _ (grid?_eq_some_iff.mp hA)
  exact ⟨B, grid?_eq_some_iff.mpr ho', hB⟩

end Retains

lemma Extends.retains (h : w.Extends w') : w.Retains w' :=
  fun _ o ho => ⟨o, h.getElem?_eq_some ho, .refl o⟩

lemma getElem?_modify (w : Workspace) (id id' : ℕ) (f : Object → Object) :
    (w.modify id f).objects[id']? =
      if id = id' then w.objects[id']?.map f else w.objects[id']? := by
  rw [modify, Array.getElem?_modify]

lemma retains_modify {f : Object → Object} (hf : ∀ o : Object, o.Like (f o)) (w : Workspace)
    (id : ℕ) : w.Retains (w.modify id f) := by
  intro id' o ho
  rw [getElem?_modify, ho]
  split_ifs
  · exact ⟨f o, rfl, hf o⟩
  · exact ⟨o, rfl, .refl o⟩

end Workspace

/-! ### Soundness -/

/-- A reference is to an object that is there. -/
def Value.IsIn (w : Workspace) : Value → Prop
  | .atom _ => True
  | .object id => id < w.objects.size

/-- The source of a view is a matrix that has the line. -/
def Line.InRange (w : Workspace) (view : Line) : Prop :=
  ∃ kind A, w.grid? view.source = some (kind, A) ∧ view.index < view.axis.count A

/-- A matrix of its class: a vector is one column. -/
def Grid.Fits (A : Grid Float32) (kind : Kind) : Prop := kind = .vector → A.cols = 1

/-- An object whose parts are what they should be. -/
def Object.Sound (w : Workspace) : Object → Prop
  | .grid kind A => A.Fits kind
  | .line view => view.InRange w
  | .list items => ∀ v ∈ items, v.IsIn w
  | .table fields => ∀ p ∈ fields, p.2.IsIn w

/-- A draft of sound objects. -/
inductive Draft.Sound (w : Workspace) : Draft → Prop where
  | value {v : Value} (isIn : v.IsIn w) : Sound w (.value v)
  | grid {kind : Kind} {A : Grid Float32} (fits : A.Fits kind) : Sound w (.grid kind A)
  | line {view : Line} (inRange : view.InRange w) : Sound w (.line view)
  | list {items : List Draft} (sound : ∀ d ∈ items, Sound w d) : Sound w (.list items)
  | table {fields : List (Literal × Draft)} (sound : ∀ p ∈ fields, Sound w p.2) :
      Sound w (.table fields)

/-- The objects that an effect changes are there, and what it adds is sound. -/
def Effect.Sound (w : Workspace) : Effect → Prop
  | .answer d => d.Sound w
  | .generated d _ => d.Sound w
  | .assign id _ => id < w.objects.size
  | .putItem id _ item => id < w.objects.size ∧ item.Sound w
  | .putField id _ field => id < w.objects.size ∧ field.Sound w

namespace Workspace

variable {w w' w'' : Workspace} {id : ℕ} {v : Value} {o : Object} {d : Draft}

/-- All objects are sound, and names stand for objects that are there. -/
structure WellFormed (w : Workspace) : Prop where
  objects : ∀ (id : ℕ) (o : Object), w.objects[id]? = some o → o.Sound w
  names : ∀ p ∈ w.names, p.2.IsIn w

lemma Retains.isIn (h : w.Retains w') (hv : v.IsIn w) : v.IsIn w' := by
  cases v with
  | atom l => trivial
  | object id => exact h.lt_size hv

lemma Retains.inRange (h : w.Retains w') {view : Line} (hview : view.InRange w) :
    view.InRange w' := by
  obtain ⟨kind, A, hA, hindex⟩ := hview
  obtain ⟨B, hB, hshape⟩ := h.grid? hA
  exact ⟨kind, B, hB, by rwa [Axis.count_eq_of_shape_eq hshape]⟩

lemma Retains.object (h : w.Retains w') (ho : o.Sound w) : o.Sound w' := by
  cases o with
  | grid kind A => exact ho
  | line view => exact h.inRange ho
  | list items => exact fun v hv => h.isIn (ho v hv)
  | table fields => exact fun p hp => h.isIn (ho p hp)

lemma Retains.draft (h : w.Retains w') (hd : d.Sound w) : d.Sound w' := by
  induction hd with
  | value isIn => exact .value (h.isIn isIn)
  | grid fits => exact .grid fits
  | line inRange => exact .line (h.inRange inRange)
  | list _ ih => exact .list ih
  | table _ ih => exact .table ih

lemma wellFormed_empty : empty.WellFormed where
  objects id o ho := by simp [empty] at ho
  names p hp := by simp [empty] at hp

/-- A sound object may be added. -/
lemma WellFormed.push (hw : w.WellFormed) (ho : o.Sound w) : (w.push o).2.WellFormed where
  objects id o' ho' := by
    have hretains := (extends_push w o).retains
    simp only [Workspace.push, Array.getElem?_push] at ho'
    split_ifs at ho'
    · cases ho'
      exact hretains.object ho
    · exact hretains.object (hw.objects id o' ho')
  names p hp := (extends_push w o).retains.isIn (hw.names p hp)

lemma isIn_push (w : Workspace) (o : Object) : (w.push o).1.IsIn (w.push o).2 := by
  simp [push, Value.IsIn]

/-- A change that keeps what objects are and leaves them sound. -/
lemma WellFormed.modify (hw : w.WellFormed) {f : Object → Object}
    (hlike : ∀ o : Object, o.Like (f o)) (hsound : ∀ o : Object, o.Sound w → (f o).Sound w)
    (id : ℕ) : (w.modify id f).WellFormed where
  objects id' o ho := by
    have hretains := retains_modify hlike w id
    rw [getElem?_modify] at ho
    split_ifs at ho
    · obtain ⟨o', ho', rfl⟩ := Option.map_eq_some_iff.mp ho
      exact hretains.object (hsound o' (hw.objects id' o' ho'))
    · exact hretains.object (hw.objects id' o ho)
  names p hp := (retains_modify hlike w id).isIn (hw.names p hp)

/-! ### Storing drafts -/

mutual

lemma WellFormed.store {w : Workspace} (hw : w.WellFormed) {d : Draft} (hd : d.Sound w) :
    (w.store d).2.WellFormed ∧ (w.store d).1.IsIn (w.store d).2 := by
  match d, hd with
  | .value v, .value isIn =>
    rw [Workspace.store]
    exact ⟨hw, isIn⟩
  | .grid kind A, .grid fits =>
    rw [Workspace.store]
    exact ⟨hw.push fits, isIn_push ..⟩
  | .line view, .line inRange =>
    rw [Workspace.store]
    exact ⟨hw.push inRange, isIn_push ..⟩
  | .list items, .list sound =>
    rw [Workspace.store]
    obtain ⟨hw', hvs⟩ := hw.storeAll sound
    exact ⟨hw'.push hvs, isIn_push ..⟩
  | .table fields, .table sound =>
    rw [Workspace.store]
    obtain ⟨hw', hvs⟩ := hw.storeFields sound
    exact ⟨hw'.push hvs, isIn_push ..⟩

lemma WellFormed.storeAll {w : Workspace} (hw : w.WellFormed) {ds : List Draft}
    (hds : ∀ d ∈ ds, d.Sound w) :
    (w.storeAll ds).2.WellFormed ∧ ∀ v ∈ (w.storeAll ds).1, v.IsIn (w.storeAll ds).2 := by
  match ds with
  | [] =>
    rw [Workspace.storeAll]
    exact ⟨hw, by simp⟩
  | d :: ds =>
    rw [Workspace.storeAll]
    obtain ⟨hd, hds⟩ := List.forall_mem_cons.mp hds
    obtain ⟨hw', hv⟩ := hw.store hd
    have hretains := (extends_store w d).retains
    obtain ⟨hw'', hvs⟩ := hw'.storeAll fun d hd => hretains.draft (hds d hd)
    exact ⟨hw'', List.forall_mem_cons.mpr
      ⟨(extends_storeAll _ ds).retains.isIn hv, hvs⟩⟩

lemma WellFormed.storeFields {w : Workspace} (hw : w.WellFormed)
    {fields : List (Literal × Draft)} (hfields : ∀ p ∈ fields, p.2.Sound w) :
    (w.storeFields fields).2.WellFormed ∧
      ∀ p ∈ (w.storeFields fields).1, p.2.IsIn (w.storeFields fields).2 := by
  match fields with
  | [] =>
    rw [Workspace.storeFields]
    exact ⟨hw, by simp⟩
  | (key, d) :: fields =>
    rw [Workspace.storeFields]
    obtain ⟨hd, hfields⟩ := List.forall_mem_cons.mp hfields
    obtain ⟨hw', hv⟩ := hw.store hd
    have hretains := (extends_store w d).retains
    obtain ⟨hw'', hvs⟩ := hw'.storeFields fun p hp => hretains.draft (hfields p hp)
    exact ⟨hw'', List.forall_mem_cons.mpr
      ⟨(extends_storeFields _ fields).retains.isIn hv, hvs⟩⟩

end

/-! ### Effects -/

lemma sound_assign (changes : List Change) (ho : o.Sound w) : (o.assign changes).Sound w := by
  cases o with
  | grid kind A =>
    obtain ⟨B, hB, hshape⟩ := Object.like_assign changes (.grid kind A)
    rw [hB]
    exact fun hkind => (Grid.cols_eq_of_shape_eq hshape).trans (ho hkind)
  | line view => exact ho
  | list items => exact ho
  | table fields => exact ho

lemma sound_putItem {place : ℕ} (hv : v.IsIn w) (ho : o.Sound w) :
    (o.putItem place v).Sound w := by
  cases o with
  | list items =>
    intro u hu
    rcases List.mem_or_eq_of_mem_set hu with hu | rfl
    · exact ho u hu
    · exact hv
  | grid kind A => exact ho
  | line view => exact ho
  | table fields => exact ho

lemma sound_putField {key : Literal} (hv : v.IsIn w) (ho : o.Sound w) :
    (o.putField key v).Sound w := by
  cases o with
  | table fields =>
    rw [Object.putField]
    split_ifs
    · intro p hp
      obtain ⟨q, hq, rfl⟩ := List.mem_map.mp hp
      split_ifs
      · exact hv
      · exact ho q hq
    · intro p hp
      rcases List.mem_append.mp hp with hp | hp
      · exact ho p hp
      · rw [List.mem_singleton.mp hp]
        exact hv
  | grid kind A => exact ho
  | line view => exact ho
  | list items => exact ho

/-- What an effect does to objects that are there. -/
lemma retains_apply (w : Workspace) (effect : Effect) : w.Retains (w.apply effect).2 := by
  cases effect with
  | answer d => exact (extends_store w d).retains
  | generated d calls => exact (extends_store w d).retains
  | assign id changes => exact retains_modify (Object.like_assign changes) w id
  | putItem id place item =>
    exact (extends_store w item).retains.trans (retains_modify (Object.like_putItem _ _) _ id)
  | putField id key field =>
    exact (extends_store w field).retains.trans (retains_modify (Object.like_putField _ _) _ id)

/-- A sound effect keeps a workspace well-formed, and its answer is there. -/
lemma WellFormed.apply (hw : w.WellFormed) {effect : Effect} (h : effect.Sound w) :
    (w.apply effect).2.WellFormed ∧ (w.apply effect).1.IsIn (w.apply effect).2 := by
  cases effect with
  | answer d => exact hw.store h
  | generated d calls =>
    obtain ⟨⟨hobjects, hnames⟩, hv⟩ := hw.store h
    exact ⟨⟨hobjects, hnames⟩, hv⟩
  | assign id changes =>
    exact ⟨hw.modify (Object.like_assign changes) (fun _ => sound_assign changes) id,
      (retains_apply w (.assign id changes)).lt_size h⟩
  -- the item is stored before the list is changed, which only grows the workspace
  | putItem id place item =>
    obtain ⟨hid, hitem⟩ := h
    obtain ⟨hw', hv⟩ := hw.store hitem
    exact ⟨hw'.modify (Object.like_putItem _ _) (fun _ => sound_putItem hv) id,
      (retains_apply w (.putItem id place item)).lt_size hid⟩
  | putField id key field =>
    obtain ⟨hid, hfield⟩ := h
    obtain ⟨hw', hv⟩ := hw.store hfield
    exact ⟨hw'.modify (Object.like_putField _ _) (fun _ => sound_putField hv) id,
      (retains_apply w (.putField id key field)).lt_size hid⟩

end Workspace

end Workforce
