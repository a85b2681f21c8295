import Workforce.Workspace.Selector

/-!
# Selecting entries

A pair of selectors selects entries of a matrix. Two integers select one entry. Otherwise the
entries form an array: first come the dimensions of the arrays that select lines, stretched to one
shape, and then the axes of which all lines are selected; new axes keep their place before or after
the arrays.
-/

namespace Workforce

/-- The number of lines along an axis, rows being the first. -/
def Shape.along (s : Shape) (axis : Nat) : Nat := if axis = 0 then s.rows else s.cols

/-- The line of an axis that an index names, counted from the end when negative. -/
def resolve (axis size : Nat) (i : Int) : Except IndexError Nat :=
  let j := if i < 0 then i + size else i
  if 0 ≤ j ∧ j < size then .ok j.toNat else .error (.outOfBounds i axis size)

/-- Indices of lines, arranged in an array. Those of a single flag belong to no axis. -/
structure IndexArray where
  axis : Option Nat
  lengths : List Nat
  indices : List Int

namespace Selector

/-- The coordinate along dimension `k` of every place at which an array of flags holds. -/
def coordinates (lengths : List Nat) (flags : List Bool) (k : Nat) : List Int :=
  let inner := Broadcast.size (lengths.drop (k + 1))
  (flags.zip (List.range flags.length)).filterMap fun (b, place) =>
    if b then some (place / inner % lengths.getD k 1) else none

/-- The arrays of indices of a selector, whose first axis is given. -/
def arrays (axis : Nat) : Selector → List IndexArray
  | line _ => []
  | fresh => []
  | lines lengths is => [⟨some axis, lengths, is⟩]
  | mask [] flags => let kept := coordinates [] flags 0; [⟨none, [kept.length], kept⟩]
  | mask lengths flags =>
    (List.range lengths.length).map fun k =>
      let kept := coordinates lengths flags k
      ⟨some (axis + k), [kept.length], kept⟩

/-- The line that a selector fixes, with its axis. -/
def fixed (s : Shape) (axis : Nat) : Selector → Except IndexError (List (Nat × Nat))
  | line i => do pure [(axis, ← resolve axis (s.along axis) i)]
  | _ => .ok []

/-- Check that flags are given for as many lines as an axis has. -/
def checkMask (s : Shape) (axis : Nat) : Selector → Except IndexError Unit
  | mask lengths _ =>
    (lengths.zip (List.range lengths.length)).forM fun (found, k) =>
      if found = s.along (axis + k) then .ok ()
      else .error (.maskMismatch (axis + k) (s.along (axis + k)) found)
  | _ => .ok ()

end Selector

/-- Several entries of a matrix, as an index selects them. -/
structure Arrangement where
  /-- New axes before the arrays. -/
  before : Nat
  /-- New axes after the arrays. -/
  after : Nat
  /-- Axes of which one line is selected. -/
  fixed : List (Nat × Nat)
  arrays : List IndexArray

namespace Arrangement

/-- Whether no arrays of indices take part. -/
def isView (a : Arrangement) : Bool := a.arrays.isEmpty

/-- The lengths of all arrays of indices together. -/
def joined (a : Arrangement) : Except IndexError (List Nat) :=
  let shapes := a.arrays.map IndexArray.lengths
  match Broadcast.joinAll? shapes with
  | some lengths => .ok lengths
  | none => .error (.mismatched shapes)

/-- The lengths of the axes of which all lines are selected. -/
def free (a : Arrangement) (s : Shape) : List Nat :=
  [0, 1].filterMap fun axis =>
    if (a.fixed.any fun p => p.1 == axis) || (a.arrays.any fun x => x.axis == some axis) then none
    else some (s.along axis)

/-- The lengths of the array of selected entries. -/
def lengths (a : Arrangement) (s : Shape) (joined : List Nat) : List Nat :=
  List.replicate a.before 1 ++ joined ++ List.replicate a.after 1 ++ a.free s

/-- Check that all indices name lines, unless nothing is selected. -/
def checkBounds (a : Arrangement) (s : Shape) (joined : List Nat) : Except IndexError Unit :=
  if Broadcast.size (a.lengths s joined) = 0 then .ok ()
  else
    a.arrays.forM fun x =>
      match x.axis with
      | some axis => x.indices.forM fun i => do let _ ← resolve axis (s.along axis) i
      | none => .ok ()

/-- For every place of the joined arrays, the lines of an axis that are selected there. -/
def linesAlong (a : Arrangement) (s : Shape) (joined : List Nat) (axis : Nat) : List (List Nat) :=
  let everywhere (lines : List Nat) : List (List Nat) :=
    List.replicate (Broadcast.size joined) lines
  match a.fixed.find? fun p => p.1 == axis with
  | some p => everywhere [p.2]
  | none =>
    match a.arrays.find? fun x => x.axis == some axis with
    | some x =>
      (Broadcast.stretch x.lengths joined x.indices.toArray 0).map fun i =>
        match resolve axis (s.along axis) i with
        | .ok line => [line]
        | .error _ => []
    | none => everywhere (List.range (s.along axis))

/-- The selected entries, in order. -/
def cells (a : Arrangement) (s : Shape) (joined : List Nat) : List (Nat × Nat) :=
  ((a.linesAlong s joined 0).zip (a.linesAlong s joined 1)).flatMap fun (is, js) =>
    is.flatMap fun i => js.map (i, ·)

end Arrangement

/-- The entries that an index pair selects. -/
inductive Selection where
  | one (i j : Nat)
  | many (a : Arrangement)

namespace Selection

/-- The entries that two selectors select in a matrix of a shape. -/
def ofSelectors (s : Shape) (r c : Selector) : Except IndexError Selection := do
  if 2 < r.axes + c.axes then .error (.tooMany (r.axes + c.axes))
  else if Literal.maxDimensions < r.dimensions c then
    .error (.tooDeep Literal.maxDimensions (r.dimensions c))
  else
    r.checkMask s 0
    c.checkMask s r.axes
    match r, c with
    | .line i, .line j => pure (one (← resolve 0 s.rows i) (← resolve 1 s.cols j))
    | r, c =>
      pure (many
        { before := if r.added = 0 then 0 else 1 + c.added
          after := if r.added = 0 then c.added else 0
          fixed := (← r.fixed s 0) ++ (← c.fixed s r.axes)
          arrays := r.arrays 0 ++ c.arrays r.axes })

/-- The entries that a pair of literals selects. -/
def ofPair (s : Shape) (r c : Literal) : Except IndexError Selection := do
  ofSelectors s (← Selector.ofLiteral r) (← Selector.ofLiteral c)

/-- The entries that an index selects in a matrix, which takes pairs only. -/
def ofIndex (s : Shape) : Literal → Except IndexError Selection
  | .list [r, c] => ofPair s r c
  | .list ls => .error (.notAPair (Literal.shownGroup ls))
  | l => .error (.notAPair l.shown)

/-- The entries that an index selects in a vector, where a single index means the only column. -/
def ofColumnIndex (s : Shape) : Literal → Except IndexError Selection
  | .list ls => ofIndex s (.list ls)
  | l => ofPair s l (.whole 0)

/-- The only entry of a selection. -/
def entry (s : Shape) : Selection → Except IndexError (Nat × Nat)
  | one i j => .ok (i, j)
  | many a => do
    a.checkBounds s (← a.joined)
    .error .notScalar

end Selection

end Workforce
