import Workforce.Workspace.Collection

/-!
# Access to entries

Entries of matrices are read and assigned by pairs of indices, those of vectors by single ones too.
A view reads its entries from its source and cannot be assigned to. Entries can be listed, searched
for and counted.
-/

namespace Workforce.Workspace

/-! ### Entries -/

/-- The entries that an index selects in a matrix or vector. -/
def select (kind : Kind) (body : Grid Float32) (index : Literal) : Except IndexError Selection :=
  match kind with
  | .matrix => Selection.ofIndex body.shape index
  | .vector => Selection.ofColumnIndex body.shape index

/-- The entry of a matrix or vector that an index selects. -/
def readEntry (kind : Kind) (body : Grid Float32) (index : Literal) :
    Except IndexError Float32 := do
  let (i, j) ← (← select kind body index).entry body.shape
  match body.get? i j with
  | some x => pure x
  | none => .error .notScalar

/-- The entry of a view at an index, which is never counted from the end. -/
def readView (entries : List Float32) (index : Literal) : Except CommandError Float32 :=
  match index with
  | .number q =>
    if 0 ≤ q ∧ q < .whole entries.length then
      match q with
      | .whole n =>
        match entries[n.toNat]? with
        | some x => .ok x
        | none => .error (.noEntry q)
      | .flag _ => .error (.index .notScalar)
      | .real _ => .error (.index .notAnIndex)
    else .error (.noEntry q)
  | .list _ => .error (.unorderedIndex "tuple")
  | l => .error (.unorderedIndex l.kind)

/-- The changes that a literal makes to the entries that an index selects. -/
def changes (kind : Kind) (body : Grid Float32) (index value : Literal) :
    Except AssignmentError (List Change) := do
  let selection ← (select kind body index).mapError .index
  selection.assign body.shape value

/-- Read what a value holds at an index. -/
def evalGet (index : Literal) : Content → Except CommandError Effect
  | .grid _ kind body => do
    pure (answered (.real (widen (← (readEntry kind body index).mapError .index))))
  | .line _ _ entries => do pure (answered (.real (widen (← readView entries index))))
  | c => do pure (.answer (← c.getItem index))

/-- Assign to what a value holds at an index. -/
def evalSet (index value : Literal) : Content → Except CommandError Effect
  | .grid id kind body => do
    pure (.assign id (← (changes kind body index value).mapError .assignment))
  | c => c.setItem index value

/-! ### Lines -/

/-- A view of the line at an index, which is never counted from the end. -/
def evalView (axis : Axis) (id : Nat) (body : Grid Float32) (index : Int) :
    Except CommandError Effect :=
  if 0 ≤ index ∧ index < axis.count body then .ok (.answer (.line ⟨axis, id, index.toNat⟩))
  else .error (.noLine axis index body.shape)

/-- All that a value holds, in order: a matrix its rows. -/
def evalElements : Content → Except CommandError Effect
  | .grid id .matrix body =>
    .ok (.answer (.list ((List.range body.rows).map fun i => .line ⟨.row, id, i⟩)))
  | .grid _ .vector body => .ok (entriesAnswered body.entries)
  | .line _ _ entries => .ok (entriesAnswered entries)
  | c =>
    match c.items? with
    | some items => .ok (.answer (.list items))
    | none => .error (.notIterable c.kindText)

/-- All that a value holds, backwards. A matrix would have to be indexed by a single number. -/
def evalReversed : Content → Except CommandError Effect
  | .grid _ .matrix body =>
    if body.rows = 0 then .ok (.answer (.list []))
    else .error (.index (.notAPair (toString (body.rows - 1))))
  | .grid _ .vector body => .ok (entriesAnswered body.entries.reverse)
  | .line _ _ entries => .ok (entriesAnswered entries.reverse)
  | c =>
    match c.items? with
    | some items => .ok (.answer (.list items.reverse))
    | none => .error (.notReversible c.kindText)

/-! ### Search -/

/-- How often a value occurs among entries. -/
def occurrences (value : Content) (xs : List Float32) : Nat :=
  (xs.filter fun x => value.literal.isNumber (.real (widen x))).length

/-- Whether a value is held by another; a matrix holds rows, and no value equals one. -/
def evalContains (value : Content) : Content → Except CommandError Effect
  | .grid _ .matrix _ => .ok (decided false)
  | .grid _ .vector body => .ok (decided (0 < occurrences value body.entries))
  | .line _ _ entries => .ok (decided (0 < occurrences value entries))
  | c => do pure (decided (← c.holds value))

/-- How often a value is held by another. -/
def evalCount (value : Content) : Content → Except CommandError Effect
  | .line _ _ entries => .ok (counted (occurrences value entries))
  | c => do pure (counted (← c.countOf value))

/-- The first place of a value in another. -/
def evalFind (value : Content) : Content → Except CommandError Effect
  | .line .. => .error .notCallable
  | c => do pure (counted (← c.placeOf value))

/-! ### Properties -/

/-- The number of rows, entries or items. -/
def evalLength : Content → Except CommandError Effect
  | .grid _ _ body => .ok (counted body.rows)
  | .line _ _ entries => .ok (counted entries.length)
  | c =>
    match c.length? with
    | some n => .ok (counted n)
    | none => .error (.noLength c.kindText)

/-- A new matrix, vector, list or table with the same entries or items. -/
def evalCopy : Content → Except CommandError Effect
  | .grid _ kind body => .ok (.answer (.grid kind body))
  | c =>
    match c.copy? with
    | some d => .ok (.answer d)
    | none => .error (.noMember c.kindText "copy")

/-- The shape of a matrix, and its numbers of rows and columns. -/
def evalShape (body : Grid Float32) : Effect :=
  let rows := Literal.whole body.rows
  let cols := Literal.whole body.cols
  .answer (.ofLiteral (.list [.list [rows, cols], rows, cols]))

end Workforce.Workspace
