import Workforce.Proofs.Workspace.EntryIndex
import Workforce.Proofs.Workspace.Invariant
import Workforce.Proofs.Workspace.RoundTrip

/-!
# Ways of reading entries

An entry of a matrix is read at its pair of indices, through views of its row and of its column, in
the list of the matrix and in the transposed matrix. All ways lead to the number that the matrix
holds at the moment (`ReadsEntry`), also through views that were made before it was changed. A view
is a sequence of the numbers on its line (`ReadsLine`).
-/

namespace Workforce

/-- What nested lists hold in a place. -/
def Literal.at? : Literal → List ℕ → Option Literal
  | l, [] => some l
  | .list ls, k :: ks => ls[k]?.bind fun l => l.at? ks
  | _, _ :: _ => none

/-- The place of an entry in the list of a matrix or vector. -/
def Kind.places (kind : Kind) (r c : ℕ) : List ℕ :=
  match kind with
  | .matrix => [r, c]
  | .vector => [r]

lemma Grid.length_line {A : Grid Float32} {axis : Axis} {i : ℕ} (hi : i < axis.count A) :
    (A.line axis i).length = axis.length A := by
  rw [line, List.filterMap_length_eq_length.mpr, List.length_range]
  exact fun k hk => Option.isSome_iff_exists.mpr (Grid.get?_cell hi (List.mem_range.mp hk))

namespace Workspace

/-! ### Readings -/

/-- What a command answers with. -/
def answer (w : Workspace) (c : Command) : Except CommandError Content :=
  (w.run ⟨c, none⟩).1.map (w.run ⟨c, none⟩).2.contentOf

/-- The workspace after a command whose answer gets a name. -/
def after (w : Workspace) (c : Command) (name : String) : Workspace := (w.run ⟨c, some name⟩).2

/-- All ways of reading the entry in row `r` and column `c` of the matrix or vector numbered `id`,
which the name `s` stands for, lead to the number `x`. -/
structure ReadsEntry (w : Workspace) (s : String) (id : ℕ) (kind : Kind) (shape : Shape) (r c : ℕ)
    (x : Float) : Prop where
  /-- Indices are counted from the first line, or from the end when they are negative. -/
  indexed : ∀ index i j, Indexes kind index i j → LineNamed shape.rows i r →
    LineNamed shape.cols j c → w.answer (.get (.name s) index) = .ok (.atom (.real x))
  row : ∀ t, (w.after (.view .row (.name s) r) t).answer (.get (.name t) (.whole c)) =
    .ok (.atom (.real x))
  column : ∀ t, (w.after (.view .column (.name s) c) t).answer
    (.get (.name t) (.whole r)) = .ok (.atom (.real x))
  /-- The elements of a matrix are views of its rows. -/
  element : ∃ content, w.answer (.elements (.name s)) = .ok content ∧
    content.literal.at? (kind.places r c) = some (.real x) ∧
    (kind = .matrix → ∃ n items m entries, content = .list n items ∧
      items[r]? = some (.line m ⟨.row, id, r⟩ entries))
  listed : ∃ content, w.answer (.toList (.name s)) = .ok content ∧
    content.literal.at? (kind.places r c) = some (.real x)
  transposed : ∀ member t i j, LineNamed shape.rows i r → LineNamed shape.cols j c →
    (w.after (.transpose member (.name s)) t).answer
      (.get (.name t) (.list [.whole j, .whole i])) = .ok (.atom (.real x))

/-- The view that the name `n` stands for is the sequence of some numbers. -/
structure ReadsLine (w : Workspace) (n : String) (xs : List Float) : Prop where
  length : w.answer (.length (.name n)) = .ok (.atom (.whole xs.length))
  elements : ∃ content, w.answer (.elements (.name n)) = .ok content ∧
    content.literal = .list (xs.map .real)
  reversed : ∃ content, w.answer (.reversed (.name n)) = .ok content ∧
    content.literal = .list (xs.reverse.map .real)
  count : ∀ l, w.answer (.count (.name n) l) =
    .ok (.atom (.whole (xs.countP fun x => l.equals (.real x))))
  contains : ∀ l, w.answer (.contains (.name n) l) =
    .ok (.atom (.number (.flag (0 < xs.countP fun x => l.equals (.real x)))))
  entry : ∀ (k : ℕ) x, xs[k]? = some x →
    w.answer (.get (.name n) (.whole k)) = .ok (.atom (.real x))
  outside : ∀ i : ℤ, i < 0 ∨ xs.length ≤ i →
    w.answer (.get (.name n) (.whole i)) = .error (.noEntry (.whole i))

variable {w u : Workspace} {c : Command} {s t n : String} {id k : ℕ} {kind : Kind}
variable {A : Grid Float32} {x : Float32} {l : Literal} {e : CommandError}

lemma answer_of_atom (h : (eval c).run w = .ok (answered l, u)) :
    w.answer c = .ok (.atom l) := by
  rw [answer, run_of_ok (s := ⟨c, none⟩) h]
  exact congrArg Except.ok (contentOf_atom ..)

lemma answer_of_literal (h : (eval c).run w = .ok (.answer (.ofLiteral l), u)) :
    ∃ content, w.answer c = .ok content ∧ content.literal = l := by
  rw [answer, run_of_ok (s := ⟨c, none⟩) h]
  exact ⟨_, rfl, literal_contentOf_store u l⟩

/-- A new list that is answered with holds the contents of its items. -/
lemma answer_of_list {ds : List Draft} (h : (eval c).run w = .ok (.answer (.list ds), u)) :
    let vs := (u.storeAll ds).1
    let size := (u.storeAll ds).2.objects.size
    w.answer c = .ok (.list size (vs.map (((u.storeAll ds).2.push (.list vs)).2.expand size))) := by
  rw [answer, run_of_ok (s := ⟨c, none⟩) h, apply, store_list]
  refine congrArg Except.ok ?_
  rw [named, contentOf, size_push, expand_push_list (.refl _)]

lemma answer_of_error (h : (eval c).run w = .error e) : w.answer c = .error e := by
  rw [answer, run_of_error (s := ⟨c, none⟩) h]
  rfl

/-- A command that answers with a new object gives it its name. -/
lemma after_of_push {effect : Effect} {o : Object} (h : (eval c).run w = .ok (effect, w))
    (ho : w.apply effect = w.push o) :
    (w.after c t).lookup t = some (.object w.objects.size) ∧
      (w.after c t).objects[w.objects.size]? = some o ∧
      ∀ {id p}, w.grid? id = some p → (w.after c t).grid? id = some p := by
  have hobject : (w.push o).2.objects[w.objects.size]? = some o := getElem?_push (.refl _)
  rw [after, run_of_ok (s := ⟨c, some t⟩) h, ho]
  exact ⟨lookup_bind .., hobject, (extends_push w o).grid?_eq_some⟩

/-! ### Views -/

section View

variable {v : ℕ} {view : Line}

lemma operand_name_of_line (hn : w.lookup n = some (.object v))
    (hv : w.objects[v]? = some (.line view)) (hA : w.grid? view.source = some (kind, A)) :
    (operand (.name n)).run w = .ok (.line v view (A.line view.axis view.index), w) := by
  refine operand_name_eq_ok_iff.mpr ⟨_, hn, ?_, rfl⟩
  rw [contentOf_line hv, entriesOf, hA]

lemma isNumber_eq_equals (l : Literal) (q : Quantity) : l.isNumber q = l.equals (.number q) := by
  cases l <;> simp [Literal.isNumber, Literal.equals]

lemma occurrences_eq_countP {value : Content} (h : value.literal = l) (xs : List Float32) :
    occurrences value xs = (xs.map widen).countP fun x => l.equals (.real x) := by
  rw [occurrences, h, List.countP_map, List.countP_eq_length_filter]
  simp only [isNumber_eq_equals, Function.comp_def]

lemma ofEntries_eq (xs : List Float32) :
    Literal.ofEntries xs = .list ((xs.map widen).map .real) := by
  rw [Literal.ofEntries, List.map_map]
  rfl

/-- A view reads the entries of its line. -/
lemma readsLine (hn : w.lookup n = some (.object v)) (hv : w.objects[v]? = some (.line view))
    (hA : w.grid? view.source = some (kind, A)) :
    w.ReadsLine n ((A.line view.axis view.index).map widen) := by
  have hoperand := operand_name_of_line hn hv hA
  -- a literal that is looked for is stored first
  have hstored (l : Literal) : ∃ value w', (operand (.literal l)).run w = .ok (value, w') ∧
      value.literal = l ∧
      (operand (.name n)).run w' = .ok (.line v view (A.line view.axis view.index), w') := by
    have hext := extends_store w (.ofLiteral l)
    exact ⟨_, _, run_operand_literal w l, literal_contentOf_store w l,
      operand_name_of_line ((hext.lookup_eq n).trans hn) (hext.getElem?_eq_some hv)
        (hext.grid?_eq_some hA)⟩
  constructor
  case length =>
    refine answer_of_atom (u := w) ?_
    rw [eval, run_bind_of_ok hoperand, run_liftM_eq_ok_iff, List.length_map]
    exact ⟨rfl, rfl⟩
  case elements =>
    refine answer_of_literal (u := w) ?_
    rw [eval, run_bind_of_ok hoperand, run_liftM_eq_ok_iff, ← ofEntries_eq]
    exact ⟨rfl, rfl⟩
  case reversed =>
    refine answer_of_literal (u := w) ?_
    rw [eval, run_bind_of_ok hoperand, run_liftM_eq_ok_iff, ← List.map_reverse, ← ofEntries_eq]
    exact ⟨rfl, rfl⟩
  case count =>
    intro l
    obtain ⟨value, w', hvalue, hl, hname⟩ := hstored l
    refine answer_of_atom (u := w') ?_
    rw [eval, run_bind_of_ok hvalue, run_bind_of_ok hname, run_liftM_eq_ok_iff,
      ← occurrences_eq_countP hl]
    exact ⟨rfl, rfl⟩
  case contains =>
    intro l
    obtain ⟨value, w', hvalue, hl, hname⟩ := hstored l
    refine answer_of_atom (u := w') ?_
    rw [eval, run_bind_of_ok hvalue, run_bind_of_ok hname, run_liftM_eq_ok_iff,
      ← occurrences_eq_countP hl]
    exact ⟨rfl, rfl⟩
  case entry =>
    intro k x hx
    rw [List.getElem?_map, Option.map_eq_some_iff] at hx
    obtain ⟨x, hx, rfl⟩ := hx
    refine answer_of_atom (u := w) ?_
    rw [eval, run_bind_of_ok hoperand, run_liftM_eq_ok_iff, evalGet_line hx]
    exact ⟨rfl, rfl⟩
  case outside =>
    intro i hi
    rw [List.length_map] at hi
    have hread : readView (A.line view.axis view.index) (.number (.whole i)) =
        .error (.noEntry (.whole i)) :=
      if_neg (zero_le_whole_and_lt_iff.not.mpr (by omega))
    refine answer_of_error ?_
    rw [eval, run_bind_of_ok hoperand, evalGet, Literal.whole, hread]
    rfl

end View

/-! ### Entries -/

section Entry

variable {r c : ℕ} {index : Literal} {i j : ℤ}

lemma readEntry_eq_ok (hindex : Indexes kind index i j) (hr : LineNamed A.rows i r)
    (hc : LineNamed A.cols j c) (hx : A.get? r c = some x) : readEntry kind A index = .ok x := by
  have hpair : Selection.ofPair A.shape (.whole i) (.whole j) = .ok (.one r c) :=
    Selection.ofPair_whole_eq_ok_iff.mpr ⟨r, c, hr, hc, rfl⟩
  rw [readEntry, select_eq_ofPair hindex, hpair, ok_bind, Selection.entry, ok_bind]
  dsimp only
  rw [hx]
  rfl

/-- An entry is read at every index that names its row and its column. -/
lemma answer_get (hs : w.lookup s = some (.object id)) (hA : w.grid? id = some (kind, A))
    (hindex : Indexes kind index i j) (hr : LineNamed A.rows i r) (hc : LineNamed A.cols j c)
    (hx : A.get? r c = some x) :
    w.answer (.get (.name s) index) = .ok (.atom (.real (widen x))) := by
  refine answer_of_atom (u := w) ?_
  rw [eval, run_bind_of_ok (operand_name_of_grid hs hA), evalGet,
    readEntry_eq_ok hindex hr hc hx]
  rfl

/-- An entry is read through a view that is made of its line. -/
lemma answer_get_view {axis : Axis} {p : ℕ} (hs : w.lookup s = some (.object id))
    (hA : w.grid? id = some (kind, A)) (hp : p < axis.count A) (hk : k < axis.length A)
    (hx : A.get? (axis.cell p k).1 (axis.cell p k).2 = some x) (t : String) :
    (w.after (.view axis (.name s) p) t).answer (.get (.name t) (.whole k)) =
      .ok (.atom (.real (widen x))) := by
  have hview : evalView axis id A p = .ok (.answer (.line ⟨axis, id, p⟩)) := by
    rw [evalView, if_pos (by omega)]
    rfl
  have heval : (eval (.view axis (.name s) p)).run w =
      .ok (.answer (.line ⟨axis, id, p⟩), w) := by
    rw [eval, run_bind_of_ok (gridOperand_name_of_grid hs hA _)]
    exact run_liftM_eq_ok_iff.mpr ⟨hview, rfl⟩
  obtain ⟨hname, hobject, hgrid⟩ := after_of_push (t := t) heval (by rw [apply, store])
  refine (readsLine hname hobject (hgrid hA)).entry k _ ?_
  rw [List.getElem?_map, Grid.getElem?_line hp, if_pos hk, hx]
  rfl

/-- An entry is read from the transposed matrix. -/
lemma answer_get_transpose (hs : w.lookup s = some (.object id))
    (hA : w.grid? id = some (kind, A)) (hr : LineNamed A.rows i r) (hc : LineNamed A.cols j c)
    (hx : A.get? r c = some x) (member t : String) :
    (w.after (.transpose member (.name s)) t).answer
      (.get (.name t) (.list [.whole j, .whole i])) = .ok (.atom (.real (widen x))) := by
  have heval : (eval (.transpose member (.name s))).run w =
      .ok (.answer (.grid .matrix A.transpose), w) := by
    rw [eval, run_bind_of_ok (gridOperand_name_of_grid hs hA _)]
    rfl
  obtain ⟨hname, hobject, -⟩ := after_of_push (t := t) heval (by rw [apply, store])
  have htransposed : A.transpose.get? c r = some x := by
    rw [Grid.get?, dif_pos ⟨hr.lt, hc.lt⟩] at hx
    rw [Grid.get?, dif_pos ⟨hc.lt, hr.lt⟩, ← hx]
    exact congrArg some (Mat.get_transpose ..)
  exact answer_get hname (grid?_eq_some_iff.mpr hobject) (.pair ..) hc hr htransposed

/-! ### Lists of entries -/

lemma getElem?_map_finRange {α : Type} {m p : ℕ} (f : Fin m → α) (hp : p < m) :
    ((List.finRange m).map f)[p]? = some (f ⟨p, hp⟩) := by
  rw [List.getElem?_map, List.getElem?_eq_getElem (by simpa using hp), List.getElem_finRange]
  rfl

/-- The list of a matrix or vector holds an entry in its place. -/
lemma at?_gridLiteral (hfits : A.Fits kind) (hx : A.get? r c = some x) :
    (gridLiteral kind A).at? (kind.places r c) = some (.real (widen x)) := by
  obtain ⟨hcell, rfl⟩ : ∃ h : r < A.rows ∧ c < A.cols, A.body.get ⟨r, h.1⟩ ⟨c, h.2⟩ = x := by
    rw [Grid.get?] at hx
    split_ifs at hx with hcell
    exact ⟨hcell, Option.some.inj hx⟩
  cases kind with
  | matrix =>
    rw [gridLiteral, Grid.toLiteral, Grid.toLists, List.map_map, Kind.places, Literal.at?,
      getElem?_map_finRange _ hcell.1, Option.bind_some, Function.comp_apply, Mat.row_eq_map,
      List.map_map, Literal.at?, getElem?_map_finRange _ hcell.2]
    rfl
  | vector =>
    obtain ⟨A⟩ := A
    obtain rfl := hfits rfl
    rw [gridLiteral, Grid.columnToLiteral, Grid.entries, Mat.entries_eq_column, Mat.column,
      List.map_map, Kind.places, Literal.at?, getElem?_map_finRange _ hcell.1,
      Subsingleton.elim (⟨c, hcell.2⟩ : Fin 1) 0]
    rfl

/-- Views that are stored are found in their places. -/
lemma getElem?_storeAll_lines {views : List Line} {view : Line} (h : views[k]? = some view)
    (hext : (w.storeAll (views.map .line)).2.Extends u) :
    ∃ v, (w.storeAll (views.map .line)).1[k]? = some (.object v) ∧
      u.objects[v]? = some (.line view) := by
  induction views generalizing w k with
  | nil => cases h
  | cons first views ih =>
    have hpush : w.store (.line first) = w.push (.line first) := by rw [store]
    rw [List.map_cons, storeAll_cons, hpush] at hext ⊢
    cases k with
    | zero =>
      cases h
      exact ⟨_, rfl, getElem?_push ((extends_storeAll _ _).trans hext)⟩
    | succ k => exact ih h hext

lemma literals_eq_map (cs : List Content) : Content.literals cs = cs.map Content.literal := by
  induction cs with
  | nil => rfl
  | cons c cs ih => rw [Content.literals, ih, List.map_cons]

/-- The elements of a matrix are views of its rows. -/
lemma answer_elements_matrix (hs : w.lookup s = some (.object id))
    (hA : w.grid? id = some (.matrix, A)) (hr : r < A.rows) :
    ∃ n items m, w.answer (.elements (.name s)) = .ok (.list n items) ∧
      items[r]? = some (.line m ⟨.row, id, r⟩ (A.line .row r)) := by
  let views : List Line := (List.range A.rows).map fun i => ⟨.row, id, i⟩
  have hview : views[r]? = some ⟨.row, id, r⟩ := by
    rw [List.getElem?_map, List.getElem?_range hr]
    rfl
  have hrows : (List.range A.rows).map (fun i => Draft.line ⟨.row, id, i⟩) = views.map .line := by
    rw [List.map_map]
    rfl
  have heval : (eval (.elements (.name s))).run w = .ok (.answer (.list (views.map .line)), w) := by
    rw [eval, run_bind_of_ok (operand_name_of_grid hs hA), evalElements, hrows]
    rfl
  -- the views are stored first and the list after them, and neither moves the matrix
  have hstored := extends_storeAll w (views.map .line)
  have hlist := extends_push (w.storeAll (views.map .line)).2
    (.list (w.storeAll (views.map .line)).1)
  obtain ⟨v, hv, hobject⟩ := getElem?_storeAll_lines hview hlist
  have hgrid := (hstored.trans hlist).grid?_eq_some hA
  have hpos : 0 < (w.storeAll (views.map .line)).2.objects.size :=
    (lt_size_of_getElem? (grid?_eq_some_iff.mp hA)).pos.trans_le hstored.size_le
  -- contents are read with as much fuel as there are objects, of which a view takes one
  obtain ⟨fuel, hfuel⟩ := Nat.exists_eq_add_one_of_ne_zero hpos.ne'
  refine ⟨_, _, v, answer_of_list heval, ?_⟩
  rw [List.getElem?_map, hv, Option.map_some, hfuel, expand, hobject]
  dsimp only
  rw [entriesOf, hgrid]

lemma readsEntry (hs : w.lookup s = some (.object id)) (hA : w.grid? id = some (kind, A))
    (hfits : A.Fits kind) (hx : A.get? r c = some x) :
    w.ReadsEntry s id kind A.shape r c (widen x) := by
  obtain ⟨hr, hc⟩ : r < A.rows ∧ c < A.cols := by
    rw [Grid.get?] at hx
    split_ifs at hx with hcell
    exact hcell
  constructor
  case indexed => exact fun index i j hindex hi hj => answer_get hs hA hindex hi hj hx
  case row => exact answer_get_view hs hA hr hc hx
  case column => exact answer_get_view hs hA hc hr hx
  case element =>
    cases kind with
    -- a row of a matrix is a view, while a vector hands out its entries themselves
    | matrix =>
      obtain ⟨n, items, m, hanswer, hitem⟩ := answer_elements_matrix hs hA hr
      refine ⟨_, hanswer, ?_, fun _ => ⟨n, items, m, _, rfl, hitem⟩⟩
      have hentry : (A.line .row r)[c]? = some x := by
        rw [Grid.getElem?_line hr]
        exact (if_pos hc).trans hx
      rw [Content.literal, literals_eq_map, Kind.places, Literal.at?, List.getElem?_map, hitem,
        Option.map_some, Option.bind_some, Content.literal, Literal.ofEntries, Literal.at?,
        List.getElem?_map, hentry]
      rfl
    | vector =>
      have heval : (eval (.elements (.name s))).run w =
          .ok (.answer (.ofLiteral (gridLiteral .vector A)), w) := by
        rw [eval, run_bind_of_ok (operand_name_of_grid hs hA)]
        rfl
      obtain ⟨content, hanswer, hliteral⟩ := answer_of_literal heval
      exact ⟨content, hanswer, hliteral ▸ at?_gridLiteral hfits hx, fun h => absurd h (by decide)⟩
  case listed =>
    obtain ⟨content, hanswer, hliteral⟩ := answer_of_literal (eval_toList hs hA)
    exact ⟨content, hanswer, hliteral ▸ at?_gridLiteral hfits hx⟩
  case transposed =>
    exact fun member t i j hi hj => answer_get_transpose hs hA hi hj hx member t

end Entry

/-- At every moment of a program, all ways of reading an entry lead to one number, which the matrix
or vector holds at that moment, and a view that was made at any earlier moment is the sequence of
the numbers that are now on its line. -/
theorem reads_agree (program later : List Statement) :
    let w₀ := empty.runAll program
    let w := w₀.runAll later
    ∀ id kind A, w.grid? id = some (kind, A) →
      (∀ r c, r < A.rows → c < A.cols → ∃ x, A.get? r c = some x ∧
        ∀ s, w.lookup s = some (.object id) → w.ReadsEntry s id kind A.shape r c (widen x)) ∧
      ∀ v view n, w₀.objects[v]? = some (.line view) → view.source = id →
        w.lookup n = some (.object v) → ∃ xs : List Float, xs.length = view.axis.length A ∧
          (∀ k < view.axis.length A, ∃ x,
            A.get? (view.axis.cell view.index k).1 (view.axis.cell view.index k).2 = some x ∧
              xs[k]? = some (widen x)) ∧
          w.ReadsLine n xs := by
  intro w₀ w id kind A hA
  have hw₀ : w₀.WellFormed := wellFormed_runAll program
  obtain ⟨hw, hretains⟩ := hw₀.runAll later
  refine ⟨fun r c hr hc => ?_, fun v view n hview hsource hn => ?_⟩
  · obtain ⟨x, hx⟩ := A.get?_eq_some hr hc
    exact ⟨x, hx, fun s hs => readsEntry hs hA (hw.fits hA) hx⟩
  -- what is stored stays in its place, and a view is never changed
  · obtain ⟨_, hv, rfl⟩ := hretains v _ hview
    subst hsource
    have hindex : view.index < view.axis.count A := by
      obtain ⟨kind', B, hB, hindex⟩ := hw.objects v _ hv
      cases hA.symm.trans hB
      exact hindex
    refine ⟨_, ?_, fun k hk => ?_, readsLine hn hv hA⟩
    · rw [List.length_map, Grid.length_line hindex]
    · obtain ⟨x, hx⟩ := Grid.get?_cell hindex hk
      refine ⟨x, hx, ?_⟩
      rw [List.getElem?_map, Grid.getElem?_line hindex, if_pos hk, hx]
      rfl

/-- An assignment to the last entry of the product. -/
def assignToProduct : List Statement := [⟨.set (.name "p") (.whole (-1)) (.whole 5), none⟩]

/-- The entry is read from the end of the vector and through the view of its column, which was made
before and has no third entry. -/
theorem reads_agree_columnOfProduct :
    let w := (empty.runAll columnOfProduct).runAll assignToProduct
    ∃ x, w.answer (.get (.name "p") (.whole (-1))) = .ok (.atom (.real x)) ∧
      w.answer (.get (.name "c") (.whole 1)) = .ok (.atom (.real x)) ∧
      w.answer (.get (.name "c") (.whole 2)) = .error (.noEntry (.whole 2)) := by
  intro w
  obtain ⟨A, hA, hshape⟩ : ∃ A, w.grid? 2 = some (.vector, A) ∧ A.shape = ⟨2, 1⟩ := ⟨_, rfl, rfl⟩
  have hrows : A.rows = 2 := congrArg Shape.rows hshape
  have hcols : A.cols = 1 := congrArg Shape.cols hshape
  obtain ⟨hentries, hviews⟩ := reads_agree columnOfProduct assignToProduct 2 .vector A hA
  obtain ⟨x, hx, hreads⟩ := hentries 1 0 (by omega) (by omega)
  obtain ⟨xs, hlength, hxs, hline⟩ := hviews 3 ⟨.column, 2, 0⟩ "c" rfl rfl rfl
  obtain ⟨y, hy, hentry⟩ := hxs 1 (by rw [Axis.length]; omega)
  obtain rfl : x = y := Option.some.inj (hx.symm.trans hy)
  refine ⟨widen x, (hreads "p" rfl).indexed _ (-1) 0 (.single _) ?_ ?_, hline.entry 1 _ hentry,
    hline.outside 2 (.inr ?_)⟩
  · rw [hshape]
    exact ⟨rfl, Nat.one_lt_two, .inr rfl⟩
  · rw [hshape]
    exact ⟨rfl, Nat.one_pos, .inl rfl⟩
  · rw [hlength, Axis.length, hrows]
    rfl

end Workspace

end Workforce
