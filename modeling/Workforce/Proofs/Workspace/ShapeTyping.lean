import Workforce.Proofs.Workspace.Expression

/-!
# Shape typing

The shape rules decide how an expression ends: the program that computes it succeeds exactly when
the expression has a form, which is then the form of the result, and otherwise it fails at the
first operation that has none.
-/

namespace Workforce

namespace Grid

variable {A B : Grid Float32}

lemma combine_of_shape_eq {op : EntrywiseOp} {f : Float32 → Float32 → Float32}
    (h : A.shape = B.shape) : ∃ C, combine op f A B = .ok C ∧ C.shape = A.shape :=
  ⟨_, dif_pos ⟨(rows_eq_of_shape_eq h).symm, (cols_eq_of_shape_eq h).symm⟩, rfl⟩

lemma combine_of_shape_ne {op : EntrywiseOp} {f : Float32 → Float32 → Float32}
    (h : A.shape ≠ B.shape) : combine op f A B = .error (.unequal op A.shape B.shape) := by
  refine dif_neg fun hsizes => h ?_
  rw [shape, shape, hsizes.1, hsizes.2]

lemma mul_of_inner_eq (h : A.cols = B.rows) :
    ∃ C, A.mul B = .ok C ∧ C.shape = ⟨A.rows, B.cols⟩ :=
  ⟨_, dif_pos h.symm, rfl⟩

lemma mul_of_inner_ne (h : A.cols ≠ B.rows) : A.mul B = .error (.inner A.shape B.shape) :=
  dif_neg (Ne.symm h)

end Grid

namespace Workspace

variable {w w' : Workspace} {s : Statement} {x y name : String} {τ σ ρ : Form} {kind : Kind}
variable {A B C : Grid Float32} {id : ℕ}

/-- The form of the matrix that a name stands for. -/
def formOf (w : Workspace) (name : String) : Option Form :=
  match w.lookup name with
  | some (.object id) => (w.grid? id).map fun p => ⟨p.1, p.2.shape⟩
  | _ => none

lemma formOf_eq_some_iff : w.formOf name = some τ ↔
    ∃ id A, w.lookup name = some (.object id) ∧ w.grid? id = some (τ.kind, A) ∧
      A.shape = τ.shape := by
  rw [formOf]
  constructor
  · intro h
    split at h
    case h_1 id hname =>
      obtain ⟨⟨kind, A⟩, hA, rfl⟩ := Option.map_eq_some_iff.mp h
      exact ⟨id, A, hname, hA, rfl⟩
    case h_2 => cases h
  · rintro ⟨id, A, hname, hA, hshape⟩
    rw [hname]
    simp [hA, hshape]

/-! ### Operations on named matrices -/

section Evaluation

variable {α β : Type} {a : α}

lemma run_bind_of_ok {f : Evaluation α} {g : α → Evaluation β} (h : f.run w = .ok (a, w')) :
    (f >>= g).run w = (g a).run w' := by
  rw [StateT.run_bind, h]
  rfl

lemma operand_name_of_grid (hname : w.lookup name = some (.object id))
    (hA : w.grid? id = some (kind, A)) :
    (operand (.name name)).run w = .ok (.grid id kind A, w) :=
  operand_name_eq_ok_iff.mpr ⟨_, hname, contentOf_grid hA, rfl⟩

lemma gridOperand_name_of_grid (hname : w.lookup name = some (.object id))
    (hA : w.grid? id = some (kind, A)) (member : String) :
    (gridOperand member (.name name)).run w = .ok ((id, kind, A), w) :=
  run_bind_of_ok (operand_name_of_grid hname hA)

end Evaluation

/-- An operation on one matrix succeeds. -/
lemma eval_unary (op : UnaryOp) (hx : w.formOf x = some τ) :
    ∃ C, (eval (op.command (.name x))).run w = .ok (.answer (.grid (op.form τ).kind C), w) ∧
      C.shape = (op.form τ).shape := by
  obtain ⟨id, A, hname, hA, hshape⟩ := formOf_eq_some_iff.mp hx
  have hoperand := operand_name_of_grid hname hA
  cases op with
  | neg =>
    refine ⟨A.neg, ?_, hshape⟩
    rw [UnaryOp.command, eval, run_bind_of_ok hoperand]
    rfl
  | scaleLeft k =>
    refine ⟨A.scale (narrow k), ?_, hshape⟩
    -- the factor is an atom, for which no object is stored
    have hfactor : (operand (.literal (.real k))).run w = .ok (.atom (.real k), w) :=
      operand_literal_eq_ok_iff.mpr ⟨contentOf_atom .., rfl⟩
    rw [UnaryOp.command, eval, run_bind_of_ok hfactor, run_bind_of_ok hoperand]
    rfl
  | scaleRight k =>
    refine ⟨A.scale (narrow k), ?_, hshape⟩
    have hfactor : (operand (.literal (.real k))).run w = .ok (.atom (.real k), w) :=
      operand_literal_eq_ok_iff.mpr ⟨contentOf_atom .., rfl⟩
    rw [UnaryOp.command, eval, run_bind_of_ok hoperand, run_bind_of_ok hfactor]
    rfl
  | transpose =>
    refine ⟨A.transpose, ?_, ?_⟩
    · rw [UnaryOp.command, eval, run_bind_of_ok (gridOperand_name_of_grid hname hA _)]
      rfl
    · rw [UnaryOp.form, ← hshape]
      rfl

/-- Two matrices whose forms go together are combined. -/
lemma evalBinary_of_forms {op : PairOp} {id' : ℕ} {kind' : Kind}
    (h : op.Forms ⟨kind, A.shape⟩ ⟨kind', B.shape⟩ ρ) :
    ∃ C, evalBinary op.toBinary (.grid id kind A) (.grid id' kind' B) =
      .ok (.answer (.grid ρ.kind C)) ∧ C.shape = ρ.shape := by
  generalize hs : A.shape = s at h
  generalize hs' : B.shape = s' at h
  cases h with
  | add =>
    obtain ⟨C, hC, hshape⟩ := Grid.combine_of_shape_eq (hs.trans hs'.symm)
    exact ⟨C, congrArg (created kind) hC, hshape.trans hs⟩
  | sub =>
    obtain ⟨C, hC, hshape⟩ := Grid.combine_of_shape_eq (hs.trans hs'.symm)
    exact ⟨C, congrArg (created kind) hC, hshape.trans hs⟩
  | matmul _ _ m n k =>
    have hinner : A.cols = B.rows := (congrArg Shape.cols hs).trans (congrArg Shape.rows hs').symm
    obtain ⟨C, hC, hshape⟩ := Grid.mul_of_inner_eq hinner
    refine ⟨C, congrArg (created kind') hC, hshape.trans ?_⟩
    rw [show A.rows = m from congrArg Shape.rows hs, show B.cols = k from congrArg Shape.cols hs']

/-- Two matrices whose forms do not go together are refused, whatever their shapes. -/
lemma evalBinary_of_not_forms {op : PairOp} {id' : ℕ} {kind' : Kind}
    (h : ∀ ρ, ¬ op.Forms ⟨kind, A.shape⟩ ⟨kind', B.shape⟩ ρ) :
    evalBinary op.toBinary (.grid id kind A) (.grid id' kind' B) =
      .error (.shape (op.mismatch A.shape B.shape)) := by
  cases op with
  | add =>
    -- shapes that agree would give a form
    have hne : A.shape ≠ B.shape := by
      intro heq
      refine h ⟨kind, A.shape⟩ ?_
      rw [← heq]
      exact .add kind kind' A.shape
    exact congrArg (created kind) (Grid.combine_of_shape_ne hne)
  | sub =>
    have hne : A.shape ≠ B.shape := by
      intro heq
      refine h ⟨kind, A.shape⟩ ?_
      rw [← heq]
      exact .sub kind kind' A.shape
    exact congrArg (created kind) (Grid.combine_of_shape_ne hne)
  | matmul =>
    have hne : A.cols ≠ B.rows := by
      intro heq
      refine h ⟨kind', ⟨A.rows, B.cols⟩⟩ ?_
      rw [Grid.shape, Grid.shape, heq]
      exact .matmul kind kind' A.rows B.rows B.cols
    exact congrArg (created kind') (Grid.mul_of_inner_ne hne)

lemma eval_pair (op : PairOp) (hx : w.formOf x = some τ) (hy : w.formOf y = some σ) :
    (∀ ρ, op.Forms τ σ ρ → ∃ C,
      (eval (op.command (.name x) (.name y))).run w = .ok (.answer (.grid ρ.kind C), w) ∧
        C.shape = ρ.shape) ∧
    ((∀ ρ, ¬ op.Forms τ σ ρ) → (eval (op.command (.name x) (.name y))).run w =
      .error (.shape (op.mismatch τ.shape σ.shape))) := by
  obtain ⟨id, A, hname, hA, hshape⟩ := formOf_eq_some_iff.mp hx
  obtain ⟨id', B, hname', hB, hshape'⟩ := formOf_eq_some_iff.mp hy
  -- the forms are those of the matrices
  obtain ⟨kind, _⟩ := τ
  obtain ⟨kind', _⟩ := σ
  cases hshape
  cases hshape'
  have heval : (eval (op.command (.name x) (.name y))).run w =
      (liftM (evalBinary op.toBinary (.grid id kind A) (.grid id' kind' B)) :
        Evaluation Effect).run w := by
    rw [PairOp.command, eval, run_bind_of_ok (operand_name_of_grid hname hA),
      run_bind_of_ok (operand_name_of_grid hname' hB)]
  rw [heval]
  refine ⟨fun ρ h => ?_, fun h => ?_⟩
  · obtain ⟨C, hC, hshape⟩ := evalBinary_of_forms h
    exact ⟨C, run_liftM_eq_ok_iff.mpr ⟨hC, rfl⟩, hshape⟩
  · rw [evalBinary_of_not_forms h]
    rfl

/-- A statement that answers with a new matrix gives it its name; other names keep their forms. -/
lemma formOf_run {z : String} (heval : (eval s.command).run w = .ok (.answer (.grid kind C), w))
    (htarget : s.target = some z) :
    (∃ v, (w.run s).1 = .ok v) ∧ (w.run s).2.formOf z = some ⟨kind, C.shape⟩ ∧
      ∀ x τ, x ≠ z → w.formOf x = some τ → (w.run s).2.formOf x = some τ := by
  have hrun : w.run s = (.ok (.object w.objects.size),
      (w.push (.grid kind C)).2.bind z (.object w.objects.size)) := by
    rw [run_of_ok heval, htarget]
    rfl
  rw [hrun]
  refine ⟨⟨_, rfl⟩, ?_, fun x τ hx hτ => ?_⟩
  · refine formOf_eq_some_iff.mpr ⟨w.objects.size, C, lookup_bind .., ?_, rfl⟩
    exact grid?_eq_some_iff.mpr (by simp [bind, push])
  · obtain ⟨id, A, hname, hA, hshape⟩ := formOf_eq_some_iff.mp hτ
    have hext := extends_push w (.grid kind C)
    refine formOf_eq_some_iff.mpr ⟨id, A, ?_, hext.grid?_eq_some hA, hshape⟩
    rw [lookup_bind_of_ne _ _ (Ne.symm hx), hext.lookup_eq, hname]

/-! ### Expressions -/

variable {Γ : String → Option Form} {fresh : ℕ → String} {m n : ℕ} {t : Expression}
variable {p : List Statement}

/-- In a workspace every name has its form, and results are given other names. -/
structure Fits (w : Workspace) (Γ : String → Option Form) (fresh : ℕ → String) : Prop where
  formOf_eq : ∀ s τ, Γ s = some τ → w.formOf s = some τ
  ne_fresh : ∀ s τ k, Γ s = some τ → s ≠ fresh k

/-- Names that are not given to results from number `n` on keep their forms. -/
def KeepsForms (fresh : ℕ → String) (n : ℕ) (w w' : Workspace) : Prop :=
  ∀ s τ, (∀ k, n ≤ k → s ≠ fresh k) → w.formOf s = some τ → w'.formOf s = some τ

lemma KeepsForms.trans {w'' : Workspace} (h : KeepsForms fresh n w w')
    (h' : KeepsForms fresh m w' w'') (hnm : n ≤ m) : KeepsForms fresh n w w'' :=
  fun s τ hs hτ => h' s τ (fun k hk => hs k (hnm.trans hk)) (h s τ hs hτ)

lemma Fits.of_keepsForms (hw : w.Fits Γ fresh) (h : KeepsForms fresh n w w') :
    w'.Fits Γ fresh where
  formOf_eq s τ hτ := h s τ (fun k _ => hw.ne_fresh s τ k hτ) (hw.formOf_eq s τ hτ)
  ne_fresh := hw.ne_fresh

/-- Later results do not take the name of a value. -/
lemma Fits.result_ne_fresh (hw : w.Fits Γ fresh) (hfresh : Function.Injective fresh)
    (ht : t.HasForm Γ τ) {k : ℕ} (hk : n + t.nodes.length ≤ k) : t.result fresh n ≠ fresh k := by
  cases ht with
  | name h => exact hw.ne_fresh _ _ k h
  | unary | pair =>
    intro heq
    have hnumber := hfresh heq
    simp only [Expression.nodes, List.length_append, List.length_singleton] at hk
    omega

/-- The program of an expression succeeds, with a result of the form that the expression has. -/
structure Computes (w : Workspace) (Γ : String → Option Form) (fresh : ℕ → String)
    (t : Expression) (n : ℕ) (τ : Form) : Prop where
  hasForm : t.HasForm Γ τ
  succeeds : w.Succeeds (t.program fresh n)
  formOf_eq : (w.runAll (t.program fresh n)).formOf (t.result fresh n) = some τ
  keepsForms : KeepsForms fresh n w (w.runAll (t.program fresh n))

/-- The program of an expression fails at its first operation without a form. -/
def Refuses (w : Workspace) (Γ : String → Option Form) (fresh : ℕ → String) (t : Expression)
    (n : ℕ) : Prop :=
  ∃ before node after error, t.nodes = before ++ node :: after ∧
    (∀ m ∈ before, ∃ τ, m.HasForm Γ τ) ∧ node.IllFormed Γ error ∧
    w.FailsAt (t.program fresh n) before.length (.shape error)

/-- A program is followed by a statement that answers with a new matrix. -/
lemma run_last (hp : w.Succeeds p) (hkeeps : KeepsForms fresh n w (w.runAll p)) {k : ℕ}
    (hk : n ≤ k) (heval : (eval s.command).run (w.runAll p) =
      .ok (.answer (.grid τ.kind C), w.runAll p)) (hC : C.shape = τ.shape)
    (htarget : s.target = some (fresh k)) :
    w.Succeeds (p ++ [s]) ∧ (w.runAll (p ++ [s])).formOf (fresh k) = some τ ∧
      KeepsForms fresh n w (w.runAll (p ++ [s])) := by
  obtain ⟨hok, hform, hothers⟩ := formOf_run heval htarget
  rw [hC] at hform
  rw [runAll_append]
  exact ⟨succeeds_append.mpr ⟨hp, hok, trivial⟩, hform,
    fun x σ hx hσ => hothers x σ (hx k hk) (hkeeps x σ hx hσ)⟩

lemma Computes.unary (op : UnaryOp) (h : Computes w Γ fresh t n τ) :
    Computes w Γ fresh (.unary op t) n (op.form τ) := by
  obtain ⟨C, heval, hC⟩ := eval_unary op h.formOf_eq
  obtain ⟨hok, hform, hkeeps⟩ := run_last (s := ⟨_, some (fresh (n + t.nodes.length))⟩)
    h.succeeds h.keepsForms (Nat.le_add_right ..) heval hC rfl
  exact ⟨h.hasForm.unary op, hok, hform, hkeeps⟩

lemma Refuses.unary (op : UnaryOp) (h : Refuses w Γ fresh t n) :
    Refuses w Γ fresh (.unary op t) n := by
  obtain ⟨before, node, after, error, hnodes, hforms, hill, hfails⟩ := h
  refine ⟨before, node, after ++ [.unary op t], error, ?_, hforms, hill, hfails.append _⟩
  rw [Expression.nodes, hnodes, List.append_assoc, List.cons_append]

section Pair

variable {u : Expression} (op : PairOp)

lemma Refuses.left (h : Refuses w Γ fresh t n) : Refuses w Γ fresh (.pair op t u) n := by
  obtain ⟨before, node, after, error, hnodes, hforms, hill, hfails⟩ := h
  refine ⟨before, node, after ++ (u.nodes ++ [.pair op t u]), error, ?_, hforms, hill,
    hfails.append _⟩
  rw [Expression.nodes, hnodes, List.append_assoc, List.cons_append]

variable (ht : Computes w Γ fresh t n τ)

include ht

lemma Refuses.right
    (hu : Refuses (w.runAll (t.program fresh n)) Γ fresh u (n + t.nodes.length)) :
    Refuses w Γ fresh (.pair op t u) n := by
  obtain ⟨before, node, after, error, hnodes, hforms, hill, hfails⟩ := hu
  refine ⟨t.nodes ++ before, node, after ++ [.pair op t u], error, ?_, fun m hm => ?_, hill, ?_⟩
  · rw [Expression.nodes, hnodes]
    simp
  · rcases List.mem_append.mp hm with hm | hm
    · exact ht.hasForm.exists_of_mem_nodes hm
    · exact hforms m hm
  · rw [List.length_append, ← Expression.length_program fresh t n]
    exact (hfails.append _).after ht.succeeds

variable (hfresh : Function.Injective fresh) (hw : w.Fits Γ fresh)
  (hu : Computes (w.runAll (t.program fresh n)) Γ fresh u (n + t.nodes.length) σ)

include hfresh hw hu

/-- Both operands are there when a pair is combined. -/
lemma operands_of_pair :
    w.Succeeds (t.program fresh n ++ u.program fresh (n + t.nodes.length)) ∧
    (w.runAll (t.program fresh n ++ u.program fresh (n + t.nodes.length))).formOf
      (t.result fresh n) = some τ ∧
    (w.runAll (t.program fresh n ++ u.program fresh (n + t.nodes.length))).formOf
      (u.result fresh (n + t.nodes.length)) = some σ ∧
    KeepsForms fresh n w
      (w.runAll (t.program fresh n ++ u.program fresh (n + t.nodes.length))) := by
  rw [runAll_append, succeeds_append]
  exact ⟨⟨ht.succeeds, hu.succeeds⟩,
    hu.keepsForms _ _ (fun k hk => hw.result_ne_fresh hfresh ht.hasForm hk) ht.formOf_eq,
    hu.formOf_eq, ht.keepsForms.trans hu.keepsForms (Nat.le_add_right ..)⟩

lemma Computes.pair (h : op.Forms τ σ ρ) : Computes w Γ fresh (.pair op t u) n ρ := by
  obtain ⟨hsucceeds, hformt, hformu, hkeeps⟩ := operands_of_pair ht hfresh hw hu
  obtain ⟨C, heval, hC⟩ := (eval_pair op hformt hformu).1 ρ h
  obtain ⟨hok, hform, hkeeps'⟩ :=
    run_last (s := ⟨_, some (fresh (n + t.nodes.length + u.nodes.length))⟩)
      hsucceeds hkeeps (by omega) heval hC rfl
  rw [List.append_assoc] at hok hform hkeeps'
  exact ⟨ht.hasForm.pair hu.hasForm h, hok, hform, hkeeps'⟩

lemma refuses_pair (h : ∀ ρ, ¬ op.Forms τ σ ρ) : Refuses w Γ fresh (.pair op t u) n := by
  obtain ⟨hsucceeds, hformt, hformu, -⟩ := operands_of_pair ht hfresh hw hu
  refine ⟨t.nodes ++ u.nodes, .pair op t u, [], _, ?_, fun m hm => ?_,
    .pair ht.hasForm hu.hasForm h, ?_⟩
  · rw [Expression.nodes, List.append_assoc]
  · rcases List.mem_append.mp hm with hm | hm
    · exact ht.hasForm.exists_of_mem_nodes hm
    · exact hu.hasForm.exists_of_mem_nodes hm
  · refine ⟨_, _, [], (List.append_assoc ..).symm, ?_, hsucceeds, ?_⟩
    · simp [Expression.length_program]
    · exact congrArg Prod.fst (run_of_error ((eval_pair op hformt hformu).2 h))

end Pair

lemma computes_or_refuses (hfresh : Function.Injective fresh)
    (ht : ∀ s ∈ t.names, ∃ τ, Γ s = some τ) (hw : w.Fits Γ fresh) (n : ℕ) :
    (∃ τ, Computes w Γ fresh t n τ) ∨ Refuses w Γ fresh t n := by
  induction t generalizing w n with
  | name s =>
    obtain ⟨τ, hτ⟩ := ht s (List.mem_singleton_self s)
    exact .inl ⟨τ, .name hτ, trivial, hw.formOf_eq s τ hτ, fun _ _ _ h => h⟩
  | unary op t ih =>
    rcases ih ht hw n with ⟨τ, h⟩ | h
    · exact .inl ⟨_, h.unary op⟩
    · exact .inr (h.unary op)
  | pair op t u iht ihu =>
    rcases iht (fun s hs => ht s (List.mem_append_left _ hs)) hw n with ⟨τ, hτ⟩ | h
    -- the right operand is computed in the workspace that the left one leads to
    · rcases ihu (fun s hs => ht s (List.mem_append_right _ hs)) (hw.of_keepsForms hτ.keepsForms)
        (n + t.nodes.length) with ⟨σ, hσ⟩ | h
      · by_cases h : ∃ ρ, op.Forms τ σ ρ
        · obtain ⟨ρ, h⟩ := h
          exact .inl ⟨ρ, hτ.pair op hfresh hw hσ h⟩
        · exact .inr (refuses_pair op hτ hfresh hw hσ (not_exists.mp h))
      · exact .inr (h.right op hτ)
    · exact .inr (h.left op)

/-- An expression is computed exactly when it has a form, which is then the form of the result.
Otherwise the first operation without a form, in the order of evaluation, fails, and the shapes of
its operands are in the error. -/
theorem program_succeeds_iff_hasForm (hfresh : Function.Injective fresh) (hw : w.Fits Γ fresh)
    (ht : ∀ s ∈ t.names, ∃ τ, Γ s = some τ) :
    (w.Succeeds (t.program fresh 0) ↔ ∃ τ, t.HasForm Γ τ) ∧
    (∀ τ, t.HasForm Γ τ → (w.runAll (t.program fresh 0)).formOf (t.result fresh 0) = some τ) ∧
    ((∀ τ, ¬ t.HasForm Γ τ) → ∃ before node after error, t.nodes = before ++ node :: after ∧
      (∀ m ∈ before, ∃ τ, m.HasForm Γ τ) ∧ node.IllFormed Γ error ∧
      w.FailsAt (t.program fresh 0) before.length (.shape error)) := by
  -- either way, what has happened excludes the other: forms are unique, and every node of an
  -- expression with a form has one
  rcases computes_or_refuses hfresh ht hw 0 with ⟨τ, h⟩ | h
  · refine ⟨⟨fun _ => ⟨τ, h.hasForm⟩, fun _ => h.succeeds⟩, fun σ hσ => ?_,
      fun hnone => absurd h.hasForm (hnone τ)⟩
    rw [← h.hasForm.unique hσ]
    exact h.formOf_eq
  · have hnone : ∀ τ, ¬ t.HasForm Γ τ := by
      intro τ hτ
      obtain ⟨before, node, after, error, hnodes, -, hill, -⟩ := h
      have hmem : node ∈ t.nodes := by simp [hnodes]
      obtain ⟨σ, hσ⟩ := hτ.exists_of_mem_nodes hmem
      exact hill.not_hasForm σ hσ
    refine ⟨⟨fun hsucceeds => ?_, fun ⟨τ, hτ⟩ => absurd hτ (hnone τ)⟩,
      fun τ hτ => absurd hτ (hnone τ), fun _ => h⟩
    obtain ⟨_, _, _, _, -, -, -, hfails⟩ := h
    exact absurd hsucceeds hfails.not_succeeds

/-- A matrix, a vector that fits it, and a square matrix. -/
def threeMatrices : List Statement :=
  [⟨.zeros (.matrix (.whole 2) (.whole 3)), some "a"⟩, ⟨.zeros (.vector (.whole 3)), some "v"⟩,
    ⟨.identity (.whole 2), some "b"⟩]

/-- Their forms. -/
def formsOfThree (s : String) : Option Form :=
  if s = "a" then some ⟨.matrix, ⟨2, 3⟩⟩
  else if s = "v" then some ⟨.vector, ⟨3, 1⟩⟩
  else if s = "b" then some ⟨.matrix, ⟨2, 2⟩⟩
  else none

/-- Names of dots. -/
def dots (k : ℕ) : String := String.ofList (List.replicate (k + 1) '.')

lemma dots_injective : Function.Injective dots := by
  intro k k' h
  have hlength := congrArg List.length (String.ofList_injective h)
  simpa using hlength

lemma fits_threeMatrices : (empty.runAll threeMatrices).Fits formsOfThree dots where
  formOf_eq s τ h := by
    rw [formsOfThree] at h
    split_ifs at h with ha hv hb
    · cases h
      rw [ha]
      rfl
    · cases h
      rw [hv]
      rfl
    · cases h
      rw [hb]
      rfl
  ne_fresh s τ k h := by
    intro heq
    have hdot : '.' ∈ s.toList := by
      rw [heq, dots, String.toList_ofList]
      simp
    rw [formsOfThree] at h
    split_ifs at h with ha hv hb
    · exact absurd (ha ▸ hdot) (by decide)
    · exact absurd (hv ▸ hdot) (by decide)
    · exact absurd (hb ▸ hdot) (by decide)

/-- The difference of two columns, one of them scaled. -/
def columnDifference : Expression :=
  .pair .sub (.pair .matmul (.unary (.scaleLeft 2) (.name "a")) (.name "v"))
    (.pair .matmul (.name "b") (.pair .matmul (.name "a") (.name "v")))

lemma hasForm_columnDifference : columnDifference.HasForm formsOfThree ⟨.vector, ⟨2, 1⟩⟩ := by
  have ha : (Expression.name "a").HasForm formsOfThree ⟨.matrix, ⟨2, 3⟩⟩ := .name rfl
  have hv : (Expression.name "v").HasForm formsOfThree ⟨.vector, ⟨3, 1⟩⟩ := .name rfl
  have hb : (Expression.name "b").HasForm formsOfThree ⟨.matrix, ⟨2, 2⟩⟩ := .name rfl
  exact ((ha.unary (.scaleLeft 2)).pair hv (.matmul ..)).pair
    (hb.pair (ha.pair hv (.matmul ..)) (.matmul ..)) (.sub ..)

/-- The difference of columns is computed, but it is not added to a matrix with more columns. -/
theorem program_succeeds_iff_hasForm_columnDifference :
    let w := empty.runAll threeMatrices
    let sum : Expression := .pair .add columnDifference (.name "a")
    w.Succeeds (columnDifference.program dots 0) ∧
      (w.runAll (columnDifference.program dots 0)).formOf (columnDifference.result dots 0) =
        some ⟨.vector, ⟨2, 1⟩⟩ ∧
      ¬ w.Succeeds (sum.program dots 0) ∧
      ∃ k e, w.FailsAt (sum.program dots 0) k (.shape e) := by
  intro w sum
  have hnames : ∀ s ∈ sum.names, ∃ τ, formsOfThree s = some τ := by
    have hall : ∀ s ∈ sum.names, (formsOfThree s).isSome := by decide
    exact fun s hs => Option.isSome_iff_exists.mp (hall s hs)
  have ha : (Expression.name "a").HasForm formsOfThree ⟨.matrix, ⟨2, 3⟩⟩ := .name rfl
  have hsum : ∀ τ, ¬ sum.HasForm formsOfThree τ :=
    Expression.IllFormed.not_hasForm (.pair hasForm_columnDifference ha fun _ h => nomatch h)
  obtain ⟨hsucceeds, hform, -⟩ := program_succeeds_iff_hasForm dots_injective fits_threeMatrices
    fun s hs => hnames s (List.mem_append_left _ hs)
  obtain ⟨hfails, -, hfirst⟩ :=
    program_succeeds_iff_hasForm dots_injective fits_threeMatrices hnames
  obtain ⟨before, node, after, error, -, -, -, hat⟩ := hfirst hsum
  exact ⟨hsucceeds.mpr ⟨_, hasForm_columnDifference⟩, hform _ hasForm_columnDifference,
    fun h => (hfails.mp h).elim hsum, _, _, hat⟩

end Workspace

end Workforce
