import Workforce.Grid.Build
import Workforce.Literal.Arithmetic

/-!
# Workspaces

A workspace holds objects and names for them. An object is a matrix or vector, a line view that
reads one row or column of another object, or a list or table of values. Names, lists and tables
refer to objects, so a change made through one of them shows through every other and through every
view of the same object.
-/

namespace Workforce

/-- Matrices, and vectors as matrices of one column. -/
inductive Kind where
  | matrix
  | vector
deriving DecidableEq, Repr

/-- Rows and columns. -/
inductive Axis where
  | row
  | column
deriving DecidableEq, Repr

/-- A view of one row or column of the object numbered `source`. -/
structure Line where
  axis : Axis
  source : Nat
  index : Nat
deriving DecidableEq, Repr

/-- What a name stands for and what lists and tables hold: an atom, or the object with a number. -/
inductive Value where
  | atom (l : Literal)
  | object (id : Nat)

/-- What a workspace holds. A table has fields under keys, which are atoms, or lists that count as
one key. -/
inductive Object where
  | grid (kind : Kind) (body : Grid Float32)
  | line (view : Line)
  | list (items : List Value)
  | table (fields : List (Literal × Value))

/-- A value that is yet to be stored: whatever is new in it becomes an object. -/
inductive Draft where
  | value (v : Value)
  | grid (kind : Kind) (body : Grid Float32)
  | line (view : Line)
  | list (items : List Draft)
  | table (fields : List (Literal × Draft))

/-- Objects in the order of their creation, names, and the calls made by the last generator. -/
structure Workspace where
  objects : Array Object
  names : List (String × Value)
  calls : Option (List (Nat × Nat))

namespace Kind

/-- The name of a kind, as it is shown. -/
def text : Kind → String
  | matrix => "Matrix"
  | vector => "Vector"

end Kind

namespace Axis

def text : Axis → String
  | row => "row"
  | column => "column"

/-- The name of a view along an axis, as it is shown. -/
def viewText : Axis → String
  | row => "RowView"
  | column => "ColumnView"

/-- How many lines a matrix has along an axis. -/
def count (axis : Axis) (A : Grid Float32) : Nat :=
  match axis with
  | row => A.rows
  | column => A.cols

/-- How many entries a line along an axis has. -/
def length (axis : Axis) (A : Grid Float32) : Nat :=
  match axis with
  | row => A.cols
  | column => A.rows

/-- Row and column of entry `k` of line `i`. -/
def cell (axis : Axis) (i k : Nat) : Nat × Nat :=
  match axis with
  | row => (i, k)
  | column => (k, i)

end Axis

/-- The entries of a line of a matrix, in order. -/
def Grid.line (A : Grid Float32) (axis : Axis) (i : Nat) : List Float32 :=
  (List.range (axis.length A)).filterMap fun k => A.get? (axis.cell i k).1 (axis.cell i k).2

/-! ### Drafts -/

namespace Draft

/-- A draft of an atom. -/
abbrev atom (l : Literal) : Draft := value (.atom l)

mutual

/-- A literal as a draft: its lists and tables are new. -/
def ofLiteral : Literal → Draft
  | .list ls => list (ofLiterals ls)
  | .table fields => table (ofFields fields)
  | l => atom l

/-- Literals as drafts. -/
def ofLiterals : List Literal → List Draft
  | [] => []
  | l :: ls => ofLiteral l :: ofLiterals ls

/-- The fields of a table as drafts. -/
def ofFields : List (String × Literal) → List (Literal × Draft)
  | [] => []
  | (name, l) :: fields => (.text name, ofLiteral l) :: ofFields fields

end

end Draft

namespace Workspace

/-- Nothing at all. -/
def empty : Workspace := ⟨#[], [], none⟩

/-- Add an object. -/
def push (w : Workspace) (o : Object) : Value × Workspace :=
  (.object w.objects.size, { w with objects := w.objects.push o })

mutual

/-- Store a draft: objects are only added. -/
def store (w : Workspace) : Draft → Value × Workspace
  | .value v => (v, w)
  | .grid kind body => w.push (.grid kind body)
  | .line view => w.push (.line view)
  | .list items =>
    let (vs, w) := storeAll w items
    w.push (.list vs)
  | .table fields =>
    let (vs, w) := storeFields w fields
    w.push (.table vs)

/-- Store drafts one after the other. -/
def storeAll (w : Workspace) : List Draft → List Value × Workspace
  | [] => ([], w)
  | d :: ds =>
    let (v, w) := store w d
    let (vs, w) := storeAll w ds
    (v :: vs, w)

/-- Store the fields of a table. -/
def storeFields (w : Workspace) : List (Literal × Draft) → List (Literal × Value) × Workspace
  | [] => ([], w)
  | (key, d) :: fields =>
    let (v, w) := store w d
    let (vs, w) := storeFields w fields
    ((key, v) :: vs, w)

end

/-! ### Names -/

/-- The value that a name stands for. -/
def lookup (w : Workspace) (name : String) : Option Value :=
  (w.names.find? fun p => p.1 == name).map Prod.snd

/-- Let a name stand for a value; other names keep theirs. -/
def bind (w : Workspace) (name : String) (v : Value) : Workspace :=
  { w with names := (name, v) :: w.names.filter fun p => p.1 != name }

@[simp] theorem lookup_bind (w : Workspace) (name : String) (v : Value) :
    (w.bind name v).lookup name = some v := by simp [lookup, bind]

theorem lookup_bind_of_ne (w : Workspace) {name other : String} (v : Value) (h : name ≠ other) :
    (w.bind name v).lookup other = w.lookup other := by
  simp only [lookup, bind, List.find?_cons]
  have : (name == other) = false := by simpa using h
  simp only [this, List.find?_filter]
  congr 2
  funext p
  by_cases hp : p.1 = other
  · simp [hp, Ne.symm h]
  · simp [hp]

/-! ### Matrices and views -/

/-- The matrix that an object number stands for. -/
def grid? (w : Workspace) (id : Nat) : Option (Kind × Grid Float32) :=
  match w.objects[id]? with
  | some (.grid kind body) => some (kind, body)
  | _ => none

/-- The current entries of a view. -/
def entriesOf (w : Workspace) (view : Line) : List Float32 :=
  match w.grid? view.source with
  | some (_, A) => A.line view.axis view.index
  | none => []

end Workspace

end Workforce
