import Workforce.Proofs.Workspace.Program

/-!
# Arithmetic expressions

An expression combines named matrices and vectors. It is computed by a program with one statement
for each operation, left operands first. The shape rules say which class and shape an expression
has, if it has one; nothing is broadcast.
-/

namespace Workforce

/-- Operations on one matrix: the other sign, a real factor on either side, and the transpose. -/
inductive UnaryOp where
  | neg
  | scaleLeft (k : Float)
  | scaleRight (k : Float)
  | transpose

/-- Operations on two matrices. -/
inductive PairOp where
  | add
  | sub
  | matmul

inductive Expression where
  | name (s : String)
  | unary (op : UnaryOp) (t : Expression)
  | pair (op : PairOp) (t u : Expression)

/-- The class and shape of a matrix. -/
structure Form where
  kind : Kind
  shape : Shape
deriving DecidableEq

/-! ### Shape rules -/

/-- Only the transpose changes what a matrix is. -/
def UnaryOp.form : UnaryOp → Form → Form
  | transpose, τ => ⟨.matrix, ⟨τ.shape.cols, τ.shape.rows⟩⟩
  | _, τ => τ

/-- The forms of operands that go together, and that of the result. -/
inductive PairOp.Forms : PairOp → Form → Form → Form → Prop where
  | add (kind kind' : Kind) (s : Shape) : Forms .add ⟨kind, s⟩ ⟨kind', s⟩ ⟨kind, s⟩
  | sub (kind kind' : Kind) (s : Shape) : Forms .sub ⟨kind, s⟩ ⟨kind', s⟩ ⟨kind, s⟩
  | matmul (kind kind' : Kind) (m n k : ℕ) :
      Forms .matmul ⟨kind, ⟨m, n⟩⟩ ⟨kind', ⟨n, k⟩⟩ ⟨kind', ⟨m, k⟩⟩

lemma PairOp.Forms.unique {op : PairOp} {τ σ ρ ρ' : Form} (h : op.Forms τ σ ρ)
    (h' : op.Forms τ σ ρ') : ρ = ρ' := by
  cases h <;> cases h' <;> rfl

/-- The error of an operation on shapes that do not go together. -/
def PairOp.mismatch : PairOp → Shape → Shape → ShapeError
  | add => .unequal .add
  | sub => .unequal .subtract
  | matmul => .inner

namespace Expression

/-- The form of an expression, given those of the names in it. -/
inductive HasForm (Γ : String → Option Form) : Expression → Form → Prop where
  | name {s : String} {τ : Form} (h : Γ s = some τ) : HasForm Γ (.name s) τ
  | unary {t : Expression} {τ : Form} (op : UnaryOp) (ht : HasForm Γ t τ) :
      HasForm Γ (.unary op t) (op.form τ)
  | pair {op : PairOp} {t u : Expression} {τ σ ρ : Form} (ht : HasForm Γ t τ)
      (hu : HasForm Γ u σ) (h : op.Forms τ σ ρ) : HasForm Γ (.pair op t u) ρ

/-- An operation whose operands have forms that do not go together. -/
inductive IllFormed (Γ : String → Option Form) : Expression → ShapeError → Prop where
  | pair {op : PairOp} {t u : Expression} {τ σ : Form} (ht : HasForm Γ t τ) (hu : HasForm Γ u σ)
      (h : ∀ ρ, ¬ op.Forms τ σ ρ) : IllFormed Γ (.pair op t u) (op.mismatch τ.shape σ.shape)

def names : Expression → List String
  | name s => [s]
  | unary _ t => t.names
  | pair _ t u => t.names ++ u.names

/-- The operations of an expression, in the order of evaluation. -/
def nodes : Expression → List Expression
  | name _ => []
  | unary op t => t.nodes ++ [unary op t]
  | pair op t u => t.nodes ++ (u.nodes ++ [pair op t u])

section Static

variable {Γ : String → Option Form} {e m : Expression} {τ σ ρ : Form} {error : ShapeError}

/-- An expression has one form. -/
lemma HasForm.unique (h : HasForm Γ e τ) (h' : HasForm Γ e σ) : τ = σ := by
  induction h generalizing σ with
  | name h =>
    cases h' with
    | name h' => exact Option.some.inj (h.symm.trans h')
  | unary op _ ih =>
    cases h' with
    | unary _ ht' => rw [ih ht']
  | pair _ _ h iht ihu =>
    cases h' with
    | pair ht' hu' h' =>
      cases iht ht'
      cases ihu hu'
      exact h.unique h'

lemma IllFormed.not_hasForm (h : IllFormed Γ e error) (τ : Form) : ¬ HasForm Γ e τ := by
  cases h with
  | pair ht hu hnot =>
    intro he
    cases he with
    | pair ht' hu' h =>
      cases ht.unique ht'
      cases hu.unique hu'
      exact hnot τ h

/-- All operations of an expression that has a form have one. -/
lemma HasForm.exists_of_mem_nodes (h : HasForm Γ e τ) (hm : m ∈ e.nodes) :
    ∃ σ, HasForm Γ m σ := by
  induction h with
  | name _ => cases hm
  | unary op ht ih =>
    rcases List.mem_append.mp hm with hm | hm
    · exact ih hm
    · rw [List.mem_singleton.mp hm]
      exact ⟨_, ht.unary op⟩
  | pair ht hu h iht ihu =>
    rcases List.mem_append.mp hm with hm | hm
    · exact iht hm
    rcases List.mem_append.mp hm with hm | hm
    · exact ihu hm
    · rw [List.mem_singleton.mp hm]
      exact ⟨_, ht.pair hu h⟩

end Static

end Expression

/-! ### Programs -/

/-- The command that does an operation. -/
def UnaryOp.command : UnaryOp → Operand → Command
  | neg, x => .neg x
  | scaleLeft k, x => .binary .mul (.literal (.real k)) x
  | scaleRight k, x => .binary .mul x (.literal (.real k))
  | transpose, x => .transpose "transpose" x

def PairOp.toBinary : PairOp → BinaryOp
  | add => .add
  | sub => .sub
  | matmul => .matmul

/-- The command that does an operation. -/
def PairOp.command (op : PairOp) : Operand → Operand → Command := .binary op.toBinary

namespace Expression

/-- The name of the value of an expression, where results are named from `fresh n` on. -/
def result (fresh : ℕ → String) : Expression → ℕ → String
  | name s, _ => s
  | unary _ t, n => fresh (n + t.nodes.length)
  | pair _ t u, n => fresh (n + t.nodes.length + u.nodes.length)

/-- The statements that compute an expression, one for each operation. -/
def program (fresh : ℕ → String) : Expression → ℕ → List Statement
  | name _, _ => []
  | unary op t, n =>
    t.program fresh n ++
      [⟨op.command (.name (t.result fresh n)), some (fresh (n + t.nodes.length))⟩]
  | pair op t u, n =>
    t.program fresh n ++ (u.program fresh (n + t.nodes.length) ++
      [⟨op.command (.name (t.result fresh n)) (.name (u.result fresh (n + t.nodes.length))),
        some (fresh (n + t.nodes.length + u.nodes.length))⟩])

lemma length_program (fresh : ℕ → String) (e : Expression) (n : ℕ) :
    (e.program fresh n).length = e.nodes.length := by
  induction e generalizing n with
  | name s => rfl
  | unary op t ih => simp [program, nodes, ih]
  | pair op t u iht ihu => simp [program, nodes, iht, ihu]

end Expression

end Workforce
