import Workforce.Literal.Conversion
import Workforce.Number.Single
import Workforce.Workspace.Selection

/-!
# Assigning values

A literal assigns numbers to selected entries: one number to a single entry, and an array that is
stretched to the selected entries otherwise. Entries that are selected more than once keep the
last number.
-/

namespace Workforce

/-- Why a literal cannot be assigned to selected entries. -/
inductive AssignmentError where
  | index (e : IndexError)
  | nesting (e : NestingError)
  | element (e : ConversionError)
  /-- Numbers that cannot be stretched to all entries on some lines. -/
  | view (found wanted : List Nat)
  /-- Numbers that cannot be stretched to the shape of arrays of indices. -/
  | selection (found wanted : List Nat)

namespace AssignmentError

def message : AssignmentError → String
  | index e => e.message
  | nesting e => e.message
  | element e => e.message
  | view found wanted =>
    s!"could not broadcast input array from shape {Broadcast.text found} into shape " ++
      Broadcast.text wanted
  | selection found wanted =>
    s!"shape mismatch: value array of shape {Broadcast.text found} could not be broadcast to " ++
      s!"indexing result of shape {Broadcast.text wanted}"

end AssignmentError

/-- An entry of a matrix and the number that is assigned to it. -/
abbrev Change : Type := (Nat × Nat) × Float32

/-- The array that a literal assigns. -/
def assignedArray (limit : Nat) (l : Literal) :
    Except AssignmentError (List Nat × Array Float32) := do
  let lengths ← (l.lengths limit).mapError .nesting
  let xs ← (l.atoms.mapM Literal.toElement).mapError .element
  pure (lengths, (xs.map narrow).toArray)

namespace Arrangement

/-- The changes that an array makes to the entries of an arrangement of some shape. -/
def changes (a : Arrangement) (s : Shape) (joined found wanted : List Nat)
    (xs : Array Float32) : List Change :=
  (a.cells s joined).zip (Broadcast.stretch found wanted xs 0)

/-- The changes that a literal makes to all entries on some lines. -/
def assignView (a : Arrangement) (s : Shape) (value : Literal) :
    Except AssignmentError (List Change) := do
  let wanted := a.lengths s []
  let (found, xs) ← assignedArray wanted.length value
  if Broadcast.fits found wanted then pure (a.changes s [] found wanted xs)
  else .error (.view found wanted)

/-- The changes that a literal makes to the entries that arrays of indices select. Outer lengths of
one are dropped where the literal has too many. -/
def assignSelection (a : Arrangement) (s : Shape) (value : Literal) :
    Except AssignmentError (List Change) := do
  let (found, xs) ← assignedArray Literal.maxDimensions value
  let joined ← a.joined.mapError .index
  let wanted := a.lengths s joined
  let extra := found.length - wanted.length
  if (found.take extra).all (· == 1) && Broadcast.fits (found.drop extra) wanted then do
    (a.checkBounds s joined).mapError .index
    pure (a.changes s joined (found.drop extra) wanted xs)
  else .error (.selection found wanted)

end Arrangement

/-- The changes that a literal makes to selected entries. -/
def Selection.assign (s : Shape) (value : Literal) :
    Selection → Except AssignmentError (List Change)
  | one i j => do pure [((i, j), narrow (← value.toElement.mapError .element))]
  | many a => if a.isView then a.assignView s value else a.assignSelection s value

end Workforce
