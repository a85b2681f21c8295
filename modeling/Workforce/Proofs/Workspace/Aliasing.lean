import Workforce.Proofs.Workspace.EntryIndex
import Workforce.Proofs.Workspace.Program

/-!
# Values and aliases

Objects are values that change by assignment only. An assignment to an entry changes that entry of
one object, and all names, lists and views that refer to the object show the change, for they read
it where it is. What is computed is a new object, so it and the operands are changed apart.
-/

namespace Workforce

namespace Content

mutual

/-- A content after the matrix numbered `id` has become `B`: the matrix itself and the views of it
show `B`, and all else stays. -/
def refreshed (id : ℕ) (B : Grid Float32) : Content → Content
  | .atom l => .atom l
  | .grid id' kind A => .grid id' kind (if id' = id then B else A)
  | .line id' view xs =>
    .line id' view (if view.source = id then B.line view.axis view.index else xs)
  | .list id' items => .list id' (refreshedAll id B items)
  | .table id' fields => .table id' (refreshedFields id B fields)

def refreshedAll (id : ℕ) (B : Grid Float32) : List Content → List Content
  | [] => []
  | c :: cs => c.refreshed id B :: refreshedAll id B cs

def refreshedFields (id : ℕ) (B : Grid Float32) :
    List (Literal × Content) → List (Literal × Content)
  | [] => []
  | (key, c) :: fields => (key, c.refreshed id B) :: refreshedFields id B fields

end

lemma refreshedAll_eq_map (id : ℕ) (B : Grid Float32) (cs : List Content) :
    refreshedAll id B cs = cs.map (refreshed id B) := by
  induction cs with
  | nil => rw [refreshedAll, List.map_nil]
  | cons c cs ih => rw [refreshedAll, ih, List.map_cons]

lemma refreshedFields_eq_map (id : ℕ) (B : Grid Float32) (fields : List (Literal × Content)) :
    refreshedFields id B fields = fields.map fun p => (p.1, p.2.refreshed id B) := by
  induction fields with
  | nil => rw [refreshedFields, List.map_nil]
  | cons p fields ih => rw [refreshedFields, ih, List.map_cons]

end Content

lemma Grid.get?_set {A : Grid Float32} {r c : ℕ} (hr : r < A.rows) (hc : c < A.cols)
    (x : Float32) (p q : ℕ) :
    (A.set r c x).get? p q = if p = r ∧ q = c then some x else A.get? p q := by
  rw [set, dif_pos ⟨hr, hc⟩]
  by_cases hpq : p < A.rows ∧ q < A.cols
  · have hset : get? ⟨A.body.set ⟨r, hr⟩ ⟨c, hc⟩ x⟩ p q =
        some ((A.body.set ⟨r, hr⟩ ⟨c, hc⟩ x).get ⟨p, hpq.1⟩ ⟨q, hpq.2⟩) := dif_pos hpq
    rw [hset, Mat.get_set, get?, dif_pos hpq, apply_ite some]
    simp only [Fin.ext_iff]
  · have hset : get? ⟨A.body.set ⟨r, hr⟩ ⟨c, hc⟩ x⟩ p q = none := dif_neg hpq
    rw [hset, get?, dif_neg hpq, if_neg]
    rintro ⟨rfl, rfl⟩
    exact hpq ⟨hr, hc⟩

namespace Workspace

variable {w w' : Workspace} {s : Statement} {id : ℕ} {v : Value} {kind : Kind}
variable {A B : Grid Float32}

/-! ### Steps and objects -/

/-- A statement assigns to an object, and succeeds. -/
def Changes (w : Workspace) (s : Statement) (id : ℕ) : Prop :=
  w.Assigns s.command id ∧ ∃ v, (w.run s).1 = .ok v

/-- No statement of a program changes an object. -/
def Spares (w : Workspace) (id : ℕ) : List Statement → Prop
  | [] => True
  | s :: program => ¬ w.Changes s id ∧ (w.run s).2.Spares id program

/-- An effect changes no object but its target. -/
lemma getElem?_apply {effect : Effect} (hid : id < w.objects.size)
    (h : effect.target? ≠ some id) : (w.apply effect).2.objects[id]? = w.objects[id]? := by
  cases effect with
  | answer d => exact (extends_store w d).getElem?_eq id hid
  | generated d calls => exact (extends_store w d).getElem?_eq id hid
  | assign id' changes =>
    rw [apply, getElem?_modify, if_neg fun heq => h (congrArg some heq)]
  | putItem id' place item =>
    rw [apply, getElem?_modify, if_neg fun heq => h (congrArg some heq)]
    exact (extends_store w item).getElem?_eq id hid
  | putField id' key field =>
    rw [apply, getElem?_modify, if_neg fun heq => h (congrArg some heq)]
    exact (extends_store w field).getElem?_eq id hid

/-- A step leaves all objects that it does not change. -/
lemma getElem?_run (hw : w.WellFormed) (hid : id < w.objects.size) (h : ¬ w.Changes s id) :
    (w.run s).2.objects[id]? = w.objects[id]? := by
  rcases run_cases w s with ⟨e, hrun⟩ | ⟨effect, w', heval, hrun⟩
  · rw [hrun]
  · obtain ⟨hext, -, -, hassigns⟩ := ensures_eval hw s.command effect w' heval
    have htarget : effect.target? ≠ some id := fun htarget =>
      h ⟨hassigns id hid htarget, _, congrArg Prod.fst hrun⟩
    rw [hrun, objects_named, getElem?_apply (hid.trans_le hext.size_le) htarget,
      hext.getElem?_eq id hid]

lemma getElem?_runAll (hw : w.WellFormed) (hid : id < w.objects.size) {program : List Statement}
    (h : w.Spares id program) : (w.runAll program).objects[id]? = w.objects[id]? := by
  induction program generalizing w with
  | nil => rfl
  | cons s program ih =>
    obtain ⟨hs, hprogram⟩ := h
    -- the object is still there after the step, so the rest of the program applies to it
    obtain ⟨hw', hretains⟩ := hw.run s
    rw [runAll_cons, ih hw' (hretains.lt_size hid) hprogram, getElem?_run hw hid hs]

/-- What is made anew is an object that was not there, and no view. -/
lemma isNew_run (hw : w.WellFormed) (hnew : s.command.MakesAnew)
    (h : (w.run s).1 = .ok (.object id)) :
    w.objects.size ≤ id ∧ ∀ view, (w.run s).2.objects[id]? ≠ some (.line view) := by
  rcases run_cases w s with ⟨e, hrun⟩ | ⟨effect, w', heval, hrun⟩
  · rw [hrun] at h
    cases h
  · obtain ⟨hext, -, hanswers⟩ := ensures_eval_of_makesAnew hw hnew effect w' heval
    rw [hrun] at h ⊢
    rw [objects_named]
    have hstored : w'.objects.size ≤ id ∧
        ∀ view, (w'.apply effect).2.objects[id]? ≠ some (.line view) := by
      cases effect with
      | answer d => exact isNew_store hanswers.2 (Except.ok.inj h)
      | generated d calls => exact isNew_store hanswers.2 (Except.ok.inj h)
      | assign | putItem | putField => exact hanswers.elim
    exact ⟨hext.size_le.trans hstored.1, hstored.2⟩

/-! ### Assignments to entries -/

lemma eval_set_name_eq_ok_iff {name : String} {index value : Literal} {effect : Effect}
    (hname : w.lookup name = some v) :
    (eval (.set (.name name) index value)).run w = .ok (effect, w') ↔
      evalSet index value (w.contentOf v) = .ok effect ∧ w = w' := by
  rw [eval, run_bind_eq_ok_iff]
  constructor
  · rintro ⟨c, w₁, hx, hlift⟩
    obtain ⟨u, hu, rfl, rfl⟩ := operand_name_eq_ok_iff.mp hx
    cases hname.symm.trans hu
    exact run_liftM_eq_ok_iff.mp hlift
  · intro h
    exact ⟨w.contentOf v, w, operand_name_eq_ok_iff.mpr ⟨v, hname, rfl, rfl⟩,
      run_liftM_eq_ok_iff.mpr h⟩

section Modification

variable {f : Object → Object} (hmodify : w'.objects = (w.modify id f).objects)
  (hA : w.grid? id = some (kind, A)) (hf : f (.grid kind A) = .grid kind B)

include hmodify hA hf

lemma grid?_of_modify : w'.grid? id = some (kind, B) := by
  rw [grid?_eq_some_iff, hmodify, getElem?_modify, if_pos rfl, grid?_eq_some_iff.mp hA,
    Option.map_some, hf]

lemma entriesOf_of_modify (view : Line) : w'.entriesOf view =
    if view.source = id then B.line view.axis view.index else w.entriesOf view := by
  split_ifs with hsource
  · rw [entriesOf, hsource, grid?_of_modify hmodify hA hf]
  · have hgrid : w'.grid? view.source = w.grid? view.source := by
      rw [grid?, hmodify, getElem?_modify, if_neg (Ne.symm hsource), grid?]
    rw [entriesOf, hgrid, entriesOf]

/-- Contents after a matrix has changed. -/
lemma expand_of_modify (fuel : ℕ) (v : Value) :
    w'.expand fuel v = (w.expand fuel v).refreshed id B := by
  induction fuel generalizing v with
  | zero => cases v <;> rw [expand, expand, Content.refreshed]
  | succ fuel ih =>
    cases v with
    | atom l => rw [expand, expand, Content.refreshed]
    | object id' =>
      -- other objects show the matrix only through views and through what they hold
      by_cases hid : id = id'
      · subst hid
        rw [expand, expand, hmodify, getElem?_modify, if_pos rfl, grid?_eq_some_iff.mp hA,
          Option.map_some, hf]
        dsimp only
        rw [Content.refreshed, if_pos rfl]
      · rw [expand, expand, hmodify, getElem?_modify, if_neg hid]
        rcases ho : w.objects[id']? with _ | o
        · rw [Content.refreshed]
        cases o with
        | grid kind' A' =>
          dsimp only
          rw [Content.refreshed, if_neg (Ne.symm hid)]
        | line view =>
          dsimp only
          rw [Content.refreshed, entriesOf_of_modify hmodify hA hf]
        | list items =>
          dsimp only
          rw [Content.refreshed, Content.refreshedAll_eq_map, List.map_map]
          exact congrArg _ (List.map_congr_left fun u _ => ih u)
        | table fields =>
          dsimp only
          rw [Content.refreshed, Content.refreshedFields_eq_map, List.map_map]
          exact congrArg _ (List.map_congr_left fun p _ => congrArg _ (ih p.2))

lemma contentOf_of_modify (v : Value) :
    w'.contentOf v = (w.contentOf v).refreshed id B := by
  rw [contentOf, expand_of_modify hmodify hA hf, contentOf, hmodify, modify, Array.size_modify]

end Modification

/-- The matrix `A` numbered `id` becomes `B`, by an assignment of `x` to the entry in row `r` and
column `c`. All contents show this, and no other object changes. -/
structure EntryAssigned (w w' : Workspace) (id : ℕ) (kind : Kind) (A B : Grid Float32) (r c : ℕ)
    (x : Float32) : Prop where
  grid?_eq : w'.grid? id = some (kind, B)
  shape_eq : B.shape = A.shape
  get?_eq : ∀ p q, B.get? p q = if p = r ∧ q = c then some x else A.get? p q
  others : ∀ id', id' ≠ id → w'.objects[id']? = w.objects[id']?
  contentOf_eq : ∀ v, w'.contentOf v = (w.contentOf v).refreshed id B

lemma entryAssigned_of_modify {r c : ℕ} {x : Float32}
    (hmodify : w'.objects = (w.modify id (Object.assign [((r, c), x)])).objects)
    (hA : w.grid? id = some (kind, A)) (hr : r < A.rows) (hc : c < A.cols) :
    EntryAssigned w w' id kind A (A.set r c x) r c x where
  grid?_eq := grid?_of_modify hmodify hA rfl
  shape_eq := Grid.shape_set ..
  get?_eq := Grid.get?_set hr hc x
  others id' hid' := by rw [hmodify, getElem?_modify, if_neg (Ne.symm hid')]
  contentOf_eq := contentOf_of_modify hmodify hA rfl

section Assignment

variable {name : String} {index value : Literal} {i j : ℤ} {x : Float}
  (hs : s.command = .set (.name name) index value) (hindex : Indexes kind index i j)
  (hname : w.lookup name = some (.object id)) (hA : w.grid? id = some (kind, A))

include hs hindex hname hA

lemma eval_set_entry_eq_ok_iff {effect : Effect} :
    (eval s.command).run w = .ok (effect, w') ↔ ∃ r c x, LineNamed A.rows i r ∧
      LineNamed A.cols j c ∧ value.toElement = .ok x ∧
        effect = .assign id [((r, c), narrow x)] ∧ w' = w := by
  rw [hs, eval_set_name_eq_ok_iff hname, contentOf_grid hA, evalSet]
  constructor
  · rintro ⟨heval, rfl⟩
    obtain ⟨changed, hchanged, heval⟩ := bind_eq_ok_iff.mp heval
    obtain ⟨r, c, x, hr, hc, hx, rfl⟩ :=
      (changes_eq_ok_iff hindex).mp (mapError_eq_ok_iff.mp hchanged)
    exact ⟨r, c, x, hr, hc, hx, (Except.ok.inj heval).symm, rfl⟩
  · rintro ⟨r, c, x, hr, hc, hx, rfl, rfl⟩
    rw [(changes_eq_ok_iff hindex).mpr ⟨r, c, x, hr, hc, hx, rfl⟩]
    exact ⟨rfl, rfl⟩

/-- An assignment to an entry succeeds when the entry is there and the value is a number. -/
lemma run_set_isOk_iff : (∃ v, (w.run s).1 = .ok v) ↔ ∃ r c x, LineNamed A.rows i r ∧
    LineNamed A.cols j c ∧ value.toElement = .ok x := by
  constructor
  · rintro ⟨v, h⟩
    rcases run_cases w s with ⟨e, hrun⟩ | ⟨effect, w', heval, -⟩
    · rw [hrun] at h
      cases h
    · obtain ⟨r, c, x, hr, hc, hx, -⟩ := (eval_set_entry_eq_ok_iff hs hindex hname hA).mp heval
      exact ⟨r, c, x, hr, hc, hx⟩
  · rintro ⟨r, c, x, hr, hc, hx⟩
    have hrun := run_of_ok
      ((eval_set_entry_eq_ok_iff hs hindex hname hA).mpr ⟨r, c, x, hr, hc, hx, rfl, rfl⟩)
    exact ⟨_, congrArg Prod.fst hrun⟩

lemma run_set_entry {r c : ℕ} (hr : LineNamed A.rows i r) (hc : LineNamed A.cols j c)
    (hx : value.toElement = .ok x) :
    (w.run s).1 = .ok (.object id) ∧
      EntryAssigned w (w.run s).2 id kind A (A.set r c (narrow x)) r c (narrow x) ∧
      ∀ other, s.target ≠ some other → (w.run s).2.lookup other = w.lookup other := by
  have hrun := run_of_ok
    ((eval_set_entry_eq_ok_iff hs hindex hname hA).mpr ⟨r, c, x, hr, hc, hx, rfl, rfl⟩)
  rw [hrun]
  exact ⟨rfl, entryAssigned_of_modify (objects_named ..) hA hr.lt hc.lt,
    fun other hother => lookup_named_of_ne hother⟩

end Assignment

/-- At every step of a program: a step that fails changes nothing, and no step changes an object
but by assigning to it. An assignment to an entry succeeds when the entry is there and the value
is a number; then that entry of that object changes, which all names and views of it show. What is
computed is new and no view, and like every object it stays until it is assigned to. -/
theorem objects_change_by_assignment (program : List Statement) (s : Statement) :
    let w := empty.runAll program
    let w' := (w.run s).2
    (∀ e, (w.run s).1 = .error e → w' = w) ∧
    (∀ id < w.objects.size, ¬ w.Changes s id → w'.objects[id]? = w.objects[id]?) ∧
    (∀ name index value i j id kind A, s.command = .set (.name name) index value →
      Indexes kind index i j → w.lookup name = some (.object id) → w.grid? id = some (kind, A) →
      ((∃ v, (w.run s).1 = .ok v) ↔ ∃ r c x, LineNamed A.rows i r ∧ LineNamed A.cols j c ∧
        value.toElement = .ok x) ∧
      ∀ r c x, LineNamed A.rows i r → LineNamed A.cols j c → value.toElement = .ok x →
        (w.run s).1 = .ok (.object id) ∧ (∃ B, EntryAssigned w w' id kind A B r c (narrow x)) ∧
        ∀ other, s.target ≠ some other → w'.lookup other = w.lookup other) ∧
    (s.command.MakesAnew → ∀ id, (w.run s).1 = .ok (.object id) →
      w.objects.size ≤ id ∧ ∀ view, w'.objects[id]? ≠ some (.line view)) ∧
    ∀ later, ∀ id < w'.objects.size, w'.Spares id later →
      (w'.runAll later).objects[id]? = w'.objects[id]? := by
  intro w w'
  have hw : w.WellFormed := wellFormed_runAll program
  refine ⟨fun e he => ?_, fun id hid => getElem?_run hw hid, ?_, fun hnew id => isNew_run hw hnew,
    fun later id hid => getElem?_runAll (hw.run s).1 hid⟩
  · rcases run_cases w s with ⟨e', hrun⟩ | ⟨effect, w₁, -, hrun⟩
    · exact congrArg Prod.snd hrun
    · rw [hrun] at he
      cases he
  · intro name index value i j id kind A hs hindex hname hA
    refine ⟨run_set_isOk_iff hs hindex hname hA, fun r c x hr hc hx => ?_⟩
    obtain ⟨hanswer, hassigned, hnames⟩ := run_set_entry hs hindex hname hA hr hc hx
    exact ⟨hanswer, ⟨_, hassigned⟩, hnames⟩

/-- A matrix, and a view of its last row. -/
def lastRow : List Statement :=
  [⟨.zeros (.matrix (.whole 2) (.whole 3)), some "a"⟩, ⟨.view .row (.name "a") 1, some "r"⟩]

def copied : Statement := ⟨.copy (.name "a"), some "c"⟩

/-- An assignment to the last entry of a row. -/
def assignIn (row : ℤ) : Statement :=
  ⟨.set (.name "a") (.list [.whole row, .whole (-1)]) (.real 2.5), none⟩

/-- A row that is not there is not assigned to. An assignment to the row that is viewed changes the
matrix but not its copy, which is new, and which an assignment that follows leaves as it is too. -/
theorem objects_change_by_assignment_copied :
    let w := empty.runAll (lastRow ++ [copied])
    let w' := (w.run (assignIn 1)).2
    let A : Grid Float32 := ⟨(Mat.zero : Mat Float32 2 3)⟩
    (w.run (assignIn 2)).2 = w ∧
      (∃ B, EntryAssigned w w' 0 .matrix A B 1 2 (narrow 2.5)) ∧
      w'.objects[2]? = w.objects[2]? ∧
      (empty.runAll lastRow).objects.size ≤ 2 ∧
      (w'.runAll [assignIn 0]).objects[2]? = w'.objects[2]? := by
  intro w w' A
  have hspared : ∀ row, ∀ u : Workspace, u.lookup "a" = some (.object 0) →
      ¬ u.Changes (assignIn row) 2 := by
    rintro row u hu ⟨⟨name, index, value, hset, hname⟩, -⟩
    cases hset
    cases hu.symm.trans hname
  obtain ⟨-, -, -, hcopied, -⟩ := objects_change_by_assignment lastRow copied
  obtain ⟨hfails, -⟩ := objects_change_by_assignment (lastRow ++ [copied]) (assignIn 2)
  obtain ⟨-, hframe, hentry, -, hlater⟩ :=
    objects_change_by_assignment (lastRow ++ [copied]) (assignIn 1)
  refine ⟨hfails (.assignment (.index (.outOfBounds 2 0 2))) rfl, ?_,
    hframe 2 (by decide) (hspared 1 w rfl), (hcopied trivial 2 rfl).1,
    hlater [assignIn 0] 2 (by decide) ⟨hspared 0 w' rfl, trivial⟩⟩
  exact ((hentry "a" _ _ 1 (-1) 0 .matrix A rfl (.pair ..) rfl rfl).2 1 2 2.5
    ⟨rfl, by decide, .inl rfl⟩ ⟨rfl, by decide, .inr rfl⟩ rfl).2.1

end Workspace

end Workforce
