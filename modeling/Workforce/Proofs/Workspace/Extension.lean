import Workforce.Proofs.Failure
import Workforce.Workspace.Eval

/-!
# Workspaces that grow

Storing a draft adds objects and leaves those that are there, and so does the evaluation of a
command, which stores the literals among its operands. `Ensures` says this of an evaluation, and
what holds of its result; it is proved for a chain of evaluations from its links.
-/

namespace Workforce.Workspace

/-- Every object of `w` is in `w'` as it was, and all names stand for what they did. -/
structure Extends (w w' : Workspace) : Prop where
  getElem?_eq : ∀ id < w.objects.size, w'.objects[id]? = w.objects[id]?
  names_eq : w'.names = w.names

variable {w w' w'' : Workspace} {id : ℕ} {o : Object} {v : Value} {d : Draft}

lemma lt_size_of_getElem? (h : w.objects[id]? = some o) : id < w.objects.size :=
  (Array.getElem?_eq_some_iff.mp h).1

lemma grid?_eq_some_iff {kind : Kind} {A : Grid Float32} :
    w.grid? id = some (kind, A) ↔ w.objects[id]? = some (.grid kind A) := by
  rw [grid?]
  split <;> simp_all

namespace Extends

lemma refl (w : Workspace) : w.Extends w := ⟨fun _ _ => rfl, rfl⟩

lemma getElem?_eq_some (h : w.Extends w') (ho : w.objects[id]? = some o) :
    w'.objects[id]? = some o := by
  rw [h.getElem?_eq id (lt_size_of_getElem? ho), ho]

lemma size_le (h : w.Extends w') : w.objects.size ≤ w'.objects.size := by
  by_contra! hlt
  have hnone : w'.objects[w'.objects.size]? = none := by simp
  rw [h.getElem?_eq _ hlt, Array.getElem?_eq_none_iff] at hnone
  omega

lemma trans (h : w.Extends w') (h' : w'.Extends w'') : w.Extends w'' where
  getElem?_eq id hid := by
    rw [h'.getElem?_eq id (hid.trans_le h.size_le), h.getElem?_eq id hid]
  names_eq := h'.names_eq.trans h.names_eq

lemma grid?_eq_some (h : w.Extends w') {p : Kind × Grid Float32} (hp : w.grid? id = some p) :
    w'.grid? id = some p :=
  grid?_eq_some_iff.mpr (h.getElem?_eq_some (grid?_eq_some_iff.mp hp))

lemma lookup_eq (h : w.Extends w') (name : String) : w'.lookup name = w.lookup name := by
  rw [lookup, lookup, h.names_eq]

end Extends

/-! ### Storing drafts -/

lemma extends_push (w : Workspace) (o : Object) : w.Extends (w.push o).2 where
  getElem?_eq id hid := by simp [push, Array.getElem?_push, hid.ne]
  names_eq := rfl

mutual

lemma extends_store (w : Workspace) (d : Draft) : w.Extends (w.store d).2 := by
  match d with
  | .value v =>
    rw [store]
    exact .refl w
  | .grid kind body =>
    rw [store]
    exact extends_push ..
  | .line view =>
    rw [store]
    exact extends_push ..
  | .list items =>
    rw [store]
    exact (extends_storeAll w items).trans (extends_push ..)
  | .table fields =>
    rw [store]
    exact (extends_storeFields w fields).trans (extends_push ..)

lemma extends_storeAll (w : Workspace) (ds : List Draft) : w.Extends (w.storeAll ds).2 := by
  match ds with
  | [] =>
    rw [storeAll]
    exact .refl w
  | d :: ds =>
    rw [storeAll]
    exact (extends_store w d).trans (extends_storeAll _ ds)

lemma extends_storeFields (w : Workspace) (fields : List (Literal × Draft)) :
    w.Extends (w.storeFields fields).2 := by
  match fields with
  | [] =>
    rw [storeFields]
    exact .refl w
  | (key, d) :: fields =>
    rw [storeFields]
    exact (extends_store w d).trans (extends_storeFields _ fields)

end

/-- A draft that is no object that is there already, and no view of one. -/
def IsNew : Draft → Prop
  | .value (.object _) => False
  | .line _ => False
  | _ => True

/-- A new draft becomes an object with a number that no object had, and no view. -/
lemma isNew_store (hd : IsNew d) (h : (w.store d).1 = .object id) :
    w.objects.size ≤ id ∧ ∀ view, (w.store d).2.objects[id]? ≠ some (.line view) := by
  match d with
  | .value (.atom l) =>
    rw [store] at h
    cases h
  | .value (.object _) | .line _ => exact hd.elim
  | .grid kind body =>
    rw [store] at h ⊢
    cases h
    simp [push]
  | .list items =>
    rw [store] at h ⊢
    cases h
    exact ⟨(extends_storeAll w items).size_le, by simp [push]⟩
  | .table fields =>
    rw [store] at h ⊢
    cases h
    exact ⟨(extends_storeFields w fields).size_le, by simp [push]⟩

/-! ### Evaluations -/

section Evaluation

variable {τ υ : Type} {x : Evaluation τ} {f : τ → Evaluation υ} {a : τ}

lemma run_bind_eq_ok_iff {b : υ} : (x >>= f).run w = .ok (b, w'') ↔
    ∃ a w', x.run w = .ok (a, w') ∧ (f a).run w' = .ok (b, w'') := by
  rw [StateT.run_bind, bind_eq_ok_iff]
  simp

/-- A computation without a workspace leaves it as it is. -/
lemma run_liftM_eq_ok_iff {x : Except CommandError τ} :
    (liftM x : Evaluation τ).run w = .ok (a, w') ↔ x = .ok a ∧ w = w' := by
  cases x with
  | error e => exact ⟨fun h => (nomatch h), fun h => (nomatch h.1)⟩
  | ok b =>
    change Except.ok (b, w) = .ok (a, w') ↔ _
    rw [Except.ok.injEq, Prod.mk.injEq, Except.ok.injEq]

/-- An evaluation only adds objects, and its result has a property in the workspace that it
leads to. -/
def Ensures (x : Evaluation τ) (w : Workspace) (P : Workspace → τ → Prop) : Prop :=
  ∀ a w', x.run w = .ok (a, w') → w.Extends w' ∧ P w' a

variable {P : Workspace → τ → Prop} {Q : Workspace → υ → Prop}

lemma ensures_pure (h : P w a) : Ensures (pure a) w P := by
  intro b w' hrun
  cases hrun
  exact ⟨.refl w, h⟩

lemma ensures_throw (e : CommandError) : Ensures (throw e : Evaluation τ) w P := by
  intro b w' hrun
  cases hrun

lemma ensures_get {P : Workspace → Workspace → Prop} (h : P w w) :
    Ensures (get : Evaluation Workspace) w P := by
  intro b w' hrun
  cases hrun
  exact ⟨.refl w, h⟩

lemma ensures_lift {x : Except CommandError τ} (h : ∀ a, x = .ok a → P w a) :
    Ensures (liftM x : Evaluation τ) w P := by
  intro b w' hrun
  obtain ⟨hb, rfl⟩ := run_liftM_eq_ok_iff.mp hrun
  exact ⟨.refl w, h b hb⟩

lemma ensures_bind (hx : Ensures x w P)
    (hf : ∀ w' a, w.Extends w' → P w' a → Ensures (f a) w' Q) : Ensures (x >>= f) w Q := by
  intro b w'' hrun
  obtain ⟨a, w', ha, hb⟩ := run_bind_eq_ok_iff.mp hrun
  obtain ⟨hext, hP⟩ := hx a w' ha
  obtain ⟨hext', hQ⟩ := hf w' a hext hP b w'' hb
  exact ⟨hext.trans hext', hQ⟩

lemma Ensures.mono {P' : Workspace → τ → Prop} (h : Ensures x w P)
    (hP : ∀ w' a, w.Extends w' → P w' a → P' w' a) : Ensures x w P' := by
  intro a w' hrun
  obtain ⟨hext, ha⟩ := h a w' hrun
  exact ⟨hext, hP w' a hext ha⟩

end Evaluation

end Workforce.Workspace
