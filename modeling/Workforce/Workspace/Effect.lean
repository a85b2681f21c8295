import Workforce.Workspace.Command
import Workforce.Workspace.Content

/-!
# Effects of commands

A command is first evaluated, which changes no object, and then its effect is applied. An effect
adds objects, and changes at most one that was there before: some entries of a matrix, an item of a
list or a field of a table.
-/

namespace Workforce

/-- What a command does to a workspace. -/
inductive Effect where
  /-- Nothing but an answer, which may be new. -/
  | answer (d : Draft)
  /-- An answer, and the calls that made it. -/
  | generated (d : Draft) (calls : List (Nat × Nat))
  /-- Change entries of a matrix, which is the answer. -/
  | assign (id : Nat) (changes : List Change)
  /-- Put an item into a place of a list, which is the answer. -/
  | putItem (id place : Nat) (item : Draft)
  /-- Put a field into a table, which is the answer. -/
  | putField (id : Nat) (key : Literal) (field : Draft)

namespace Object

/-- Change entries of a matrix, one after the other. -/
def assign (changes : List Change) : Object → Object
  | .grid kind body => .grid kind (changes.foldl (fun A c => A.set c.1.1 c.1.2 c.2) body)
  | o => o

/-- Put an item into a place of a list. -/
def putItem (place : Nat) (v : Value) : Object → Object
  | .list items => .list (items.set place v)
  | o => o

/-- Put a field into a table; a new one comes last. -/
def putField (key : Literal) (v : Value) : Object → Object
  | .table fields =>
    if fields.any fun p => p.1.equals key then
      .table (fields.map fun p => if p.1.equals key then (p.1, v) else p)
    else .table (fields ++ [(key, v)])
  | o => o

end Object

namespace Workspace

/-- Change one object. -/
def modify (w : Workspace) (id : Nat) (f : Object → Object) : Workspace :=
  { w with objects := w.objects.modify id f }

/-- Let an effect happen, and answer. -/
def apply (w : Workspace) : Effect → Value × Workspace
  | .answer d => w.store d
  | .generated d calls =>
    let (v, w) := w.store d
    (v, { w with calls := some calls })
  | .assign id changes => (.object id, w.modify id (Object.assign changes))
  | .putItem id place item =>
    let (v, w) := w.store item
    (.object id, w.modify id (Object.putItem place v))
  | .putField id key field =>
    let (v, w) := w.store field
    (.object id, w.modify id (Object.putField key v))

/-- The evaluation of a command stores the literals that it mentions, and changes nothing else. -/
abbrev Evaluation (τ : Type) : Type := StateT Workspace (Except CommandError) τ

/-- The content of an operand. -/
def operand (x : Operand) : Evaluation Content := do
  let w ← get
  match x with
  | .literal l =>
    let (v, w) := w.store (.ofLiteral l)
    set w
    pure (w.contentOf v)
  | .name s =>
    match w.lookup s with
    | some v => pure (w.contentOf v)
    | none => throw (.unknownName s)

/-- A matrix or vector; every other operand lacks the member `member`. -/
def gridOperand (member : String) (x : Operand) : Evaluation (Nat × Kind × Grid Float32) := do
  match ← operand x with
  | .grid id kind body => pure (id, kind, body)
  | c => throw (.noMember c.kindText member)

/-! ### Answers -/

/-- An atom as an answer. -/
def answered (l : Literal) : Effect := .answer (.atom l)

/-- A number of things as an answer. -/
def counted (n : Nat) : Effect := answered (.whole n)

/-- A truth value as an answer. -/
def decided (b : Bool) : Effect := answered (.number (.flag b))

/-- A matrix or vector as an answer, unless shapes do not fit. -/
def created (kind : Kind) (body : Except ShapeError (Grid Float32)) : Except CommandError Effect :=
  match body with
  | .ok body => .ok (.answer (.grid kind body))
  | .error e => .error (.shape e)

/-- Entries of a matrix as an answer. -/
def entriesAnswered (xs : List Float32) : Effect := .answer (.ofLiteral (.ofEntries xs))

end Workspace

end Workforce
