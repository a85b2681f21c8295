import Workforce.Literal.Basic

/-!
# The shape of nested lists

Nested lists form an array when, at every depth, all lists have members of one common shape, and
when they are not nested too deeply. Every other literal is an atom, of empty shape. Where lists
form no array, a scan from left to right finds the lengths that they have in common.
-/

namespace Workforce

/-- Why nested lists form no array. -/
inductive NestingError where
  /-- Lists of different shapes, with the lengths that they have in common. -/
  | uneven (lengths : List Nat)
  /-- Lists that are nested more deeply than an array can be. -/
  | tooDeep (limit : Nat)
deriving DecidableEq, Repr

namespace NestingError

def message : NestingError → String
  | uneven lengths =>
    let shape := Literal.shownGroup (lengths.map fun (n : Nat) => .whole n)
    "setting an array element with a sequence. The requested array has an inhomogeneous shape " ++
      s!"after {lengths.length} dimensions. The detected shape was {shape} + inhomogeneous part."
  | tooDeep limit =>
    "setting an array element with a sequence. The requested array would exceed the maximum " ++
      s!"number of dimension of {limit}."

end NestingError

namespace Literal

/-- The one member shape of a list of arrays; an empty list has no members to speak for. -/
def common : List (Option (List Nat)) → Option (List Nat)
  | [] => some []
  | s :: ss => if ss.all (· == s) then s else none

mutual

/-- The shape of a literal read as an array, outermost length first; `none` if its lists do not
have one common shape. -/
def shape? : Literal → Option (List Nat)
  | list ls => (common (shapes ls)).map (ls.length :: ·)
  | _ => some []

/-- The shapes of the members of a list. -/
def shapes : List Literal → List (Option (List Nat))
  | [] => []
  | l :: ls => l.shape? :: shapes ls

end

mutual

/-- The atoms of a literal, from left to right. -/
def atoms : Literal → List Literal
  | list ls => atomsOf ls
  | l => [l]

/-- The atoms of the members of a list. -/
def atomsOf : List Literal → List Literal
  | [] => []
  | l :: ls => l.atoms ++ atomsOf ls

end

/-- What is known of the shape of an array while its literal is read from left to right. -/
structure Scan where
  /-- The depth at which atoms are expected, or a bound on it. -/
  depth : Nat
  /-- The lengths of the first list at every depth. -/
  lengths : List Nat := []
  /-- Whether the depth of the atoms is known. -/
  settled : Bool := false

namespace Scan

/-- Read an atom, or what has to count as one, at a depth. -/
def atom (s : Scan) (depth : Nat) : Scan := { s with depth := min s.depth depth, settled := true }

/-- Read the beginning of a list with `length` members at a depth, above that of the atoms. Its
members follow, unless it is empty or differs from the lists before it. -/
def enter (s : Scan) (depth length : Nat) : Scan × Bool :=
  if !s.settled then
    if length = 0 then (⟨depth + 1, s.lengths ++ [0], true⟩, false)
    else ({ s with lengths := s.lengths ++ [length] }, true)
  else if s.lengths[depth]? ≠ some length then ({ s with depth }, false)
  else if length = 0 then ({ s with depth := depth + 1 }, false)
  else (s, true)

end Scan

mutual

/-- Read a literal at a depth. -/
def scan (s : Scan) (depth : Nat) : Literal → Scan
  | list ls =>
    if s.depth < depth then s
    else if s.depth = depth then s.atom depth
    else
      let (s, inside) := s.enter depth ls.length
      if inside then scanAll s (depth + 1) ls else s
  | _ => s.atom depth

/-- Read the members of a list at their depth. -/
def scanAll (s : Scan) (depth : Nat) : List Literal → Scan
  | [] => s
  | l :: ls => scanAll (scan s depth l) depth ls

end

/-- The lengths of the array that a literal writes, of at most `limit` dimensions. -/
def lengths (limit : Nat) (l : Literal) : Except NestingError (List Nat) :=
  match l.shape? with
  | some lengths => if lengths.length ≤ limit then .ok lengths else .error (.tooDeep limit)
  | none =>
    let s := scan ⟨limit, [], false⟩ 0 l
    .error (if s.depth = limit then .tooDeep limit else .uneven (s.lengths.take s.depth))

/-- The number of dimensions that an array has at most. -/
def maxDimensions : Nat := 64

theorem shapes_eq_map (ls : List Literal) : shapes ls = ls.map shape? := by
  induction ls with
  | nil => simp [shapes]
  | cons l ls ih => simp [shapes, ih]

theorem atomsOf_eq_flatMap (ls : List Literal) : atomsOf ls = ls.flatMap atoms := by
  induction ls with
  | nil => simp [atomsOf]
  | cons l ls ih => simp [atomsOf, ih]

end Literal

end Workforce
