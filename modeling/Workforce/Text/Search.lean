/-!
# Searching a text

Where a text first occurs in another, and how often it occurs in it without overlaps.
-/

namespace Workforce.Text

/-- The place at which a text first occurs in another. -/
def find? (part : List Char) : List Char → Option Nat
  | [] => if part.isEmpty then some 0 else none
  | c :: cs => if part.isPrefixOf (c :: cs) then some 0 else (find? part cs).map (· + 1)

/-- How often a text that is not empty occurs in another after its first `skipped` characters, each
time behind the last one. -/
def occurrences (part : List Char) (skipped : Nat) : List Char → Nat
  | [] => 0
  | c :: cs =>
    match skipped with
    | skipped + 1 => occurrences part skipped cs
    | 0 =>
      if part.isPrefixOf (c :: cs) then 1 + occurrences part (part.length - 1) cs
      else occurrences part 0 cs

/-- How often a text occurs in another without overlaps. The empty text occurs between any two
characters and at both ends. -/
def count (part cs : List Char) : Nat :=
  if part.isEmpty then cs.length + 1 else occurrences part 0 cs

end Workforce.Text
