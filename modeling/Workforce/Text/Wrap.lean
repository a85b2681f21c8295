/-!
# Filling lines

Pieces of text are put on lines from left to right; a piece that does not fit on a line starts the
next one. A word can be broken after a hyphen between letters.
-/

namespace Workforce.Text

/-- The lengths of the blanks between words and of the lines they are put on. -/
structure Filling where
  /-- The greatest length of a line. -/
  width : Nat
  /-- What is taken up at the beginning of every line but the first. -/
  indent : Nat

/-- Put pieces on lines, `used` characters of the present line being taken up already. A piece
comes with the gap before it, which is dropped at the beginning of a line. -/
def fill (f : Filling) : (used : Nat) → (line : String) → List (String × String) → List String
  | _, line, [] => [line]
  | used, line, (gap, piece) :: rest =>
    if line.isEmpty then fill f (used + piece.length) piece rest
    else if used + gap.length + piece.length ≤ f.width then
      fill f (used + gap.length + piece.length) (line ++ gap ++ piece) rest
    else line :: fill f (f.indent + piece.length) piece rest

/-- Break a word after every hyphen between letters. -/
def breakWord (word : String) : List String :=
  let parts := word.splitOn "-"
  let n := parts.length
  let ends (s : String) : Bool := (s.toList.getLast?).any Char.isAlpha
  let starts (s : String) : Bool := (s.toList.head?).any Char.isAlpha
  -- a hyphen stays at the end of the part before it
  if n = 2 ∧ ends (parts.headD "") ∧ starts (parts.getD 1 "") then
    [parts.headD "" ++ "-", parts.getD 1 ""]
  else [word]

/-- The pieces of a sentence, each with the gap before it. -/
def pieces (sentence : String) : List (String × String) :=
  (sentence.splitOn " ").flatMap fun word =>
    match breakWord word with
    | [] => []
    | first :: rest => (" ", first) :: rest.map fun part => ("", part)

/-- A sentence on lines of a given width. -/
def wrap (width : Nat) (sentence : String) : List String :=
  fill ⟨width, 0⟩ 0 "" (pieces sentence)

end Workforce.Text
