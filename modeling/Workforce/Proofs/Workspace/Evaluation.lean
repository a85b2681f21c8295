import Workforce.Proofs.Workspace.Answers

/-!
# The evaluation of commands

The evaluation of a command leads from a well-formed workspace to one, and its effect is sound
there. Only an assignment changes an object, which is the one that its operand stands for; most
other commands make their answers anew.
-/

namespace Workforce

/-- Commands that make their answers anew, whatever they are about. The others hand out what is
there: a value, what it holds, a view of it, and a value that was assigned to. -/
def Command.MakesAnew : Command → Prop
  | .give _ => False
  | .get .. => False
  | .view .. => False
  | .set .. => False
  | _ => True

/-- The object that an effect changes, if there is one. -/
def Effect.target? : Effect → Option ℕ
  | .answer _ => none
  | .generated .. => none
  | .assign id _ => some id
  | .putItem id .. => some id
  | .putField id .. => some id

lemma Effect.Answers.target?_eq {P : Draft → Prop} {effect : Effect} (h : effect.Answers P) :
    effect.target? = none := by
  cases effect with
  | answer | generated => rfl
  | assign | putItem | putField => exact h.elim

lemma Effect.Answers.mono {P Q : Draft → Prop} {effect : Effect} (h : effect.Answers P)
    (hPQ : ∀ d, P d → Q d) : effect.Answers Q := by
  cases effect with
  | answer | generated => exact hPQ _ h
  | assign | putItem | putField => exact h

lemma Effect.Answers.sound {w : Workspace} {effect : Effect} (h : effect.Answers (·.Sound w)) :
    effect.Sound w := by
  cases effect with
  | answer | generated => exact h
  | assign | putItem | putField => exact h.elim

namespace Workspace

variable {w w' : Workspace} {id : ℕ} {c : Content} {x y : Operand}

/-- A well-formed workspace, and an effect that adds something sound and new to it. -/
def Made (w : Workspace) (effect : Effect) : Prop :=
  w.WellFormed ∧ effect.Answers fun d => d.Sound w ∧ IsNew d

section Operands

lemma ensures_makes {x : Except CommandError Effect} (hw : w.WellFormed) (h : Makes w x) :
    Ensures (liftM x : Evaluation Effect) w Made :=
  ensures_lift fun effect heffect => ⟨hw, h effect heffect⟩

/-- An evaluation that begins with an operand. -/
lemma ensures_operand_bind {τ : Type} {Q : Workspace → τ → Prop} {f : Content → Evaluation τ}
    (hw : w.WellFormed) (x : Operand)
    (hf : ∀ w' c, w'.WellFormed → c.Held w' → Ensures (f c) w' Q) :
    Ensures (operand x >>= f) w Q :=
  ensures_bind (ensures_operand hw x) fun w' c _ ⟨hw', hc⟩ => hf w' c hw' hc

/-- A command about one operand. -/
lemma ensures_makes_operand {f : Content → Except CommandError Effect} (hw : w.WellFormed)
    (x : Operand)
    (hf : ∀ w' c, w'.WellFormed → c.Held w' → Makes w' (f c)) :
    Ensures (operand x >>= fun c => liftM (f c)) w Made :=
  ensures_operand_bind hw x fun w' c hw' hc => ensures_makes hw' (hf w' c hw' hc)

/-- A command about two operands. -/
lemma ensures_makes_operands {f : Content → Content → Except CommandError Effect}
    (hw : w.WellFormed) (x y : Operand)
    (hf : ∀ w' t u, w'.WellFormed → t.Held w' → u.Held w' → Makes w' (f t u)) :
    Ensures (operand x >>= fun t => operand y >>= fun u => liftM (f t u)) w Made :=
  ensures_operand_bind hw x fun _ t hw' ht =>
    ensures_bind (ensures_operand hw' y) fun w'' u hext ⟨hw'', hu⟩ =>
      ensures_makes hw'' (hf w'' t u hw'' (hext.held ht) hu)

/-- A command about a matrix or vector. -/
lemma ensures_makes_gridOperand {f : ℕ → Kind → Grid Float32 → Except CommandError Effect}
    (hw : w.WellFormed) (member : String) (x : Operand)
    (hf : ∀ w' id kind A, w'.WellFormed → w'.grid? id = some (kind, A) → Makes w' (f id kind A)) :
    Ensures (gridOperand member x >>= fun p => liftM (f p.1 p.2.1 p.2.2)) w Made :=
  ensures_bind (ensures_gridOperand hw member x) fun w' p _ ⟨hw', hA⟩ =>
    ensures_makes hw' (hf w' p.1 p.2.1 p.2.2 hw' hA)

/-- A command about a vector and another value. -/
lemma ensures_makes_vector {f : Grid Float32 → Content → Except CommandError Effect}
    (hw : w.WellFormed) (x y : Operand) (member : String)
    (hf : ∀ w' A c, A.Fits .vector → Makes w' (f A c)) :
    Ensures (operand x >>= fun t =>
        match t with
        | .grid _ .vector A => operand y >>= fun u => liftM (f A u)
        | c => throw (.noMember c.kindText member)) w Made := by
  refine ensures_operand_bind hw x fun w' t hw' ht => ?_
  split
  case h_1 A =>
    cases ht with
    | grid hA =>
      exact ensures_operand_bind hw' y fun w'' u hw'' _ =>
        ensures_makes hw'' (hf w'' A u (hw'.fits hA))
  case h_2 => exact ensures_throw _

end Operands

lemma ensures_eval_of_makesAnew (hw : w.WellFormed) {command : Command}
    (h : command.MakesAnew) : Ensures (eval command) w Made := by
  cases command with
  | give | get | view | set => exact h.elim
  -- what is made of the operands is sound and new by the lemmas about answers
  | build kind data expected => exact ensures_makes hw (makes_build kind data expected)
  | zeros lengths => exact ensures_makes hw (makes_zeros lengths)
  | identity n => exact ensures_makes hw (makes_identity n)
  | generate lengths f => exact ensures_makes hw (makes_generate lengths f)
  | calls =>
    exact ensures_bind (ensures_get (P := fun w' _ => w'.WellFormed) hw)
      fun w' u _ hw' => ensures_makes hw' (makes_calls u w')
  | copy x => exact ensures_makes_operand hw x fun w' c => makes_copy
  | elements x => exact ensures_makes_operand hw x fun w' c _ => makes_elements
  | reversed x => exact ensures_makes_operand hw x fun w' c _ => makes_reversed
  | length x => exact ensures_makes_operand hw x fun w' c _ _ => makes_length c
  | neg x => exact ensures_makes_operand hw x fun w' c => makes_neg
  | contains x value =>
    exact ensures_makes_operands hw (.literal value) x fun w' t u _ _ _ => makes_contains t u
  | find x value =>
    exact ensures_makes_operands hw (.literal value) x fun w' t u _ _ _ => makes_find t u
  | count x value =>
    exact ensures_makes_operands hw (.literal value) x fun w' t u _ _ _ => makes_count t u
  | binary op x y => exact ensures_makes_operands hw x y fun w' t u hw' => makes_binary hw' op
  | equal negated x y =>
    exact ensures_makes_operands hw x y fun w' t u _ _ _ => makes_equal negated t u
  | rebuild kind x =>
    exact ensures_makes_gridOperand hw _ x fun w' _ _ _ hw' hA =>
      makes_rebuild (hw'.fits hA) kind
  | toList x =>
    exact ensures_makes_gridOperand hw _ x fun w' _ kind A _ _ => makes_literal (gridLiteral kind A)
  | shape x => exact ensures_makes_gridOperand hw _ x fun w' _ _ A _ _ => makes_shape A
  | transpose member x =>
    exact ensures_makes_gridOperand hw member x fun w' _ _ A _ _ => makes_matrix A.transpose
  | normSquared x =>
    exact ensures_makes_gridOperand hw _ x fun w' _ _ A _ _ =>
      makes_answered (.real (widen A.normSquared))
  | isFinite x =>
    exact ensures_makes_gridOperand hw _ x fun w' _ _ A _ _ =>
      makes_answered (.number (.flag (A.entries.all Precision.isFinite)))
  | display x => exact ensures_makes_operand hw x fun w' c _ _ => makes_answered (.text c.shown)
  | hash x => exact ensures_operand_bind hw x fun w' c _ _ => ensures_throw _
  | sourceIs x y =>
    -- the second operand is only read if the first one is a view
    refine ensures_operand_bind hw x fun w' t hw' _ => ?_
    split
    case h_1 =>
      refine ensures_operand_bind hw' y fun w'' u hw'' _ => ?_
      split
      case h_1 => exact ensures_makes hw'' (makes_answered _)
      case h_2 => exact ensures_makes hw'' (makes_answered _)
    case h_2 => exact ensures_throw _
  | zipMap f x y =>
    exact ensures_makes_vector hw x y _ fun w' A c hA => makes_zipMap hA f c
  | entrywiseMul x y =>
    exact ensures_makes_vector hw x y _ fun w' A c hA => makes_entrywiseMul hA c

/-! ### Assignments -/

/-- An assignment changes the object that it is about. -/
lemma target?_of_evalSet (hc : c.Held w) {index value : Literal} {effect : Effect}
    (h : evalSet index value c = .ok effect) :
    effect.Sound w ∧ ∃ id, effect.target? = some id ∧ c.value = .object id := by
  cases hc with
  | @grid id kind A hA =>
    obtain ⟨changes, -, h⟩ := bind_eq_ok_iff.mp h
    cases h
    exact ⟨lt_size_of_getElem? (grid?_eq_some_iff.mp hA), id, rfl, rfl⟩
  -- views and texts are refused, lists and tables may be assigned to like matrices
  | line =>
    obtain ⟨_, -, h⟩ := bind_eq_ok_iff.mp h
    cases h
  | @list id items hid held =>
    obtain ⟨place, -, h⟩ := bind_eq_ok_iff.mp h
    cases h
    exact ⟨⟨hid, sound_ofLiteral w value⟩, id, rfl, rfl⟩
  | @table id fields hid held =>
    obtain ⟨key, -, h⟩ := bind_eq_ok_iff.mp h
    cases h
    exact ⟨⟨hid, sound_ofLiteral w value⟩, id, rfl, rfl⟩
  | atom l =>
    cases l with
    | null | number | list | table => cases h
    | text s =>
      obtain ⟨_, -, h⟩ := bind_eq_ok_iff.mp h
      cases h

lemma value_contentOf {v : Value} (hv : v.IsIn w) : (w.contentOf v).value = v := by
  cases v with
  | atom l => simp [Content.value]
  | object id =>
    obtain ⟨fuel, hfuel⟩ := exists_contentOf_eq_expand hv
    rw [hfuel, expand, Array.getElem?_eq_getElem hv]
    cases w.objects[id] <;> rfl

/-- A command assigns to an object that has a name. -/
def Assigns (w : Workspace) (command : Command) (id : ℕ) : Prop :=
  ∃ name index value, command = .set (.name name) index value ∧
    w.lookup name = some (.object id)

/-- What the evaluation of a command leads to. -/
structure Evaluated (w : Workspace) (command : Command) (w' : Workspace) (effect : Effect) :
    Prop where
  wellFormed : w'.WellFormed
  sound : effect.Sound w'
  assigns : ∀ id < w.objects.size, effect.target? = some id → w.Assigns command id

lemma evaluated_of_answers {command : Command} {effect : Effect} (hw' : w'.WellFormed)
    (h : effect.Answers (·.Sound w')) : Evaluated w command w' effect where
  wellFormed := hw'
  sound := h.sound
  assigns id _ hid := by rw [h.target?_eq] at hid; cases hid

/-- Names are read, and literals are made of new objects. -/
lemma assigns_of_operand (hw : w.WellFormed) {x : Operand} (hx : (operand x).run w = .ok (c, w'))
    (hid : id < w.objects.size) (hc : c.value = .object id) :
    ∃ name, x = .name name ∧ w.lookup name = some (.object id) := by
  cases x with
  | name s =>
    obtain ⟨v, hv, rfl, rfl⟩ := operand_name_eq_ok_iff.mp hx
    rw [value_contentOf (isIn_of_lookup hw hv)] at hc
    exact ⟨s, rfl, hc ▸ hv⟩
  | literal l =>
    obtain ⟨rfl, rfl⟩ := operand_literal_eq_ok_iff.mp hx
    obtain ⟨hw', hv⟩ := hw.store (sound_ofLiteral w l)
    rw [value_contentOf hv] at hc
    exact absurd (isNew_store (isNew_ofLiteral l) hc).1 hid.not_ge

lemma ensures_eval (hw : w.WellFormed) (command : Command) :
    Ensures (eval command) w (Evaluated w command) := by
  -- a command that makes its answer anew changes no object
  by_cases hnew : command.MakesAnew
  · exact (ensures_eval_of_makesAnew hw hnew).mono fun w' effect _ ⟨hw', h⟩ =>
      evaluated_of_answers hw' (h.mono fun _ => And.left)
  cases command with
  | give x =>
    refine ensures_operand_bind hw x fun w' c hw' hc => ensures_pure ?_
    exact evaluated_of_answers hw' (sound_draft hc)
  | get x index =>
    refine ensures_operand_bind hw x fun w' c hw' hc => ensures_lift fun effect h => ?_
    exact evaluated_of_answers hw' (hands_get hc index effect h)
  | view axis x index =>
    refine ensures_bind (ensures_gridOperand hw axis.text x) fun w' p _ ⟨hw', hA⟩ =>
      ensures_lift fun effect h => ?_
    exact evaluated_of_answers hw' (hands_view hA axis index effect h)
  -- the one command that changes an object, which is the one that its operand stands for
  | set x index value =>
    intro effect w'' hrun
    obtain ⟨c, w', hx, hlift⟩ := run_bind_eq_ok_iff.mp hrun
    obtain ⟨hset, rfl⟩ := run_liftM_eq_ok_iff.mp hlift
    obtain ⟨hext, hw', hc⟩ := ensures_operand hw x c w' hx
    obtain ⟨hsound, id, htarget, hvalue⟩ := target?_of_evalSet hc hset
    refine ⟨hext, hw', hsound, fun id' hid' h => ?_⟩
    cases htarget.symm.trans h
    obtain ⟨name, rfl, hname⟩ := assigns_of_operand hw hx hid' hvalue
    exact ⟨name, index, value, rfl, hname⟩
  | _ => exact absurd trivial hnew

end Workspace

end Workforce
