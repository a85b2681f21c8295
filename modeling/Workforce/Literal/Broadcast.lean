/-!
# Stretching arrays

An array can stand in for a larger one when its lengths, counted from the innermost, are those of
the larger array or one; a length of one is stretched, and outer lengths may be missing. Arrays are
joined to the least array that all of them can be stretched to.
-/

namespace Workforce.Broadcast

/-- The number of entries of an array. -/
def size (lengths : List Nat) : Nat := lengths.foldl (· * ·) 1

/-- Lengths with ones in front, up to a number of dimensions. -/
def padded (dimensions : Nat) (lengths : List Nat) : List Nat :=
  List.replicate (dimensions - lengths.length) 1 ++ lengths

/-- Whether an array can be stretched to other lengths. -/
def fits (source target : List Nat) : Bool :=
  decide (source.length ≤ target.length) &&
    ((padded target.length source).zip target).all fun (a, b) => a == 1 || a == b

/-- The length that two lengths are stretched to. -/
def joinLength? (a b : Nat) : Option Nat :=
  if a = b then some a else if a = 1 then some b else if b = 1 then some a else none

/-- The lengths that two arrays are stretched to. -/
def join? (a b : List Nat) : Option (List Nat) :=
  let dimensions := max a.length b.length
  ((padded dimensions a).zip (padded dimensions b)).mapM fun (x, y) => joinLength? x y

/-- The lengths that some arrays are stretched to. -/
def joinAll? (shapes : List (List Nat)) : Option (List Nat) := shapes.foldlM join? []

/-- For every entry of an array of lengths `target`, in order, the number of the entry of an array
of lengths `source` that stands there; both have as many dimensions. -/
def places : (source target : List Nat) → List Nat
  | s :: source, t :: target =>
    let inner := places source target
    (List.range t).flatMap fun i => inner.map (· + (if s = 1 then 0 else i * size source))
  | _, _ => [0]

/-- The entries of an array that is stretched to other lengths. -/
def stretch {τ : Type} (source target : List Nat) (entries : Array τ) (default : τ) : List τ :=
  (places (padded target.length source) target).map fun k => entries.getD k default

/-- Lengths in parentheses; a single one ends in a comma. -/
def text : List Nat → String
  | [n] => s!"({n},)"
  | lengths => "(" ++ ",".intercalate (lengths.map toString) ++ ")"

end Workforce.Broadcast
