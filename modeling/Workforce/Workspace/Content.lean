import Workforce.Workspace.Basic

/-!
# Contents

The content of a value is everything that it holds at the moment: objects come with their numbers,
lists and tables with the contents of what they hold, and views with their entries. How values are
shown and compared follows from their contents.
-/

namespace Workforce

/-- Everything that a value holds. -/
inductive Content where
  | atom (l : Literal)
  | grid (id : Nat) (kind : Kind) (body : Grid Float32)
  | line (id : Nat) (view : Line) (entries : List Float32)
  | list (id : Nat) (items : List Content)
  | table (id : Nat) (fields : List (Literal × Content))

/-- How a key is shown. -/
def Literal.shownKey : Literal → String
  | list ls => shownGroup ls
  | l => l.shown

/-- A key as the name of a field. -/
def Literal.keyName : Literal → String
  | text s => s
  | l => l.shownKey

/-- A list of entries as a literal. -/
def Literal.ofEntries (xs : List Float32) : Literal := .list (xs.map fun x => .real (widen x))

/-- The entries of a matrix as a list of rows, those of a vector as a flat list. -/
def gridLiteral (kind : Kind) (body : Grid Float32) : Literal :=
  match kind with
  | .matrix => body.toLiteral
  | .vector => body.columnToLiteral

namespace Content

/-- The name of the kind of a value, as it is shown. -/
def kindText : Content → String
  | atom l => l.kind
  | grid _ kind _ => kind.text
  | line _ view _ => view.axis.viewText
  | list .. => "list"
  | table .. => "dict"

/-- The value that has a content. -/
def value : Content → Value
  | atom l => .atom l
  | grid id _ _ => .object id
  | line id _ _ => .object id
  | list id _ => .object id
  | table id _ => .object id

/-- The value that has a content, as a draft. -/
def draft (c : Content) : Draft := .value c.value

mutual

/-- How a value is shown. -/
def shown : Content → String
  | atom l => l.shown
  | grid _ kind body => kind.text ++ "(" ++ (gridLiteral kind body).shown ++ ")"
  | line _ view entries =>
    view.axis.viewText ++ "(" ++ (Literal.ofEntries entries).shown ++ ")"
  | list _ items => "[" ++ ", ".intercalate (shownAll items) ++ "]"
  | table _ fields => "\x7b" ++ ", ".intercalate (shownFields fields) ++ "\x7d"

/-- The items of a list, each shown. -/
def shownAll : List Content → List String
  | [] => []
  | c :: cs => c.shown :: shownAll cs

/-- The fields of a table, each shown. -/
def shownFields : List (Literal × Content) → List String
  | [] => []
  | (key, c) :: fields => (key.shownKey ++ ": " ++ c.shown) :: shownFields fields

end

mutual

/-- A value as a literal, which holds numbers for entries. -/
def literal : Content → Literal
  | atom l => l
  | grid _ kind body => gridLiteral kind body
  | line _ _ entries => .ofEntries entries
  | list _ items => .list (literals items)
  | table _ fields => .table (literalFields fields)

/-- The items of a list as literals. -/
def literals : List Content → List Literal
  | [] => []
  | c :: cs => c.literal :: literals cs

/-- The fields of a table as literals. -/
def literalFields : List (Literal × Content) → List (String × Literal)
  | [] => []
  | (key, c) :: fields => (key.keyName, c.literal) :: literalFields fields

end

mutual

/-- Whether two values that are no matrices are equal: atoms, lists and tables by what they hold,
and views only to themselves. -/
def equals : Content → Content → Bool
  | atom l, atom l' => l.equals l'
  | line id _ _, line id' _ _ => id == id'
  | list id items, list id' items' => id == id' || equalsAll items items'
  | table id fields, table id' fields' =>
    id == id' || (fields.length == fields'.length && equalsFields fields fields')
  | _, _ => false

/-- Whether two lists hold equal values, place by place. -/
def equalsAll : List Content → List Content → Bool
  | [], [] => true
  | c :: cs, c' :: cs' => c.equals c' && equalsAll cs cs'
  | _, _ => false

/-- Whether the fields of a table are found in another with equal values. -/
def equalsFields : List (Literal × Content) → List (Literal × Content) → Bool
  | [], _ => true
  | (key, c) :: fields, others =>
    (match others.find? fun p => p.1.equals key with
      | some p => c.equals p.2
      | none => false) && equalsFields fields others

end

end Content

namespace Workspace

/-- The content of a value. Lists are nested no more deeply than there are objects. -/
def expand (w : Workspace) : (fuel : Nat) → Value → Content
  | _, .atom l => .atom l
  | 0, .object _ => .atom .null
  | fuel + 1, .object id =>
    match w.objects[id]? with
    | some (.grid kind body) => .grid id kind body
    | some (.line view) => .line id view (w.entriesOf view)
    | some (.list items) => .list id (items.map (expand w fuel))
    | some (.table fields) => .table id (fields.map fun (key, v) => (key, expand w fuel v))
    | none => .atom .null

/-- The content of a value. -/
def contentOf (w : Workspace) (v : Value) : Content := w.expand w.objects.size v

@[simp] theorem contentOf_atom (w : Workspace) (l : Literal) :
    w.contentOf (.atom l) = .atom l := by simp [contentOf, expand]

end Workspace

end Workforce
