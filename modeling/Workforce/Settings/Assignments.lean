import Workforce.Text.Classes

/-!
# Files of assignments

A file of settings has an assignment `NAME=value` on each line. A name may follow the word
`export` and may be quoted; a value is plain up to a comment, or quoted, and then may span lines
and hold escapes. `${NAME}` in a value stands for an earlier value, or for the default in
`${NAME:-default}`. Lines that are no assignments are passed over, and a name alone assigns
nothing.
-/

namespace Workforce.Assignments

/-- An end of line. -/
def isBreak (c : Char) : Bool := c == '\n' || c == '\r'

/-- A blank within a line. -/
def isGap (c : Char) : Bool := Text.isSpacing c && !isBreak c

/-- What remains after the line that a text begins with. -/
def nextLine (cs : List Char) : List Char :=
  match cs.dropWhile (!isBreak ·) with
  | '\r' :: '\n' :: rest => rest
  | _ :: rest => rest
  | [] => []

/-- The text up to a closing quote, and what follows it. A backslash protects the character after
it, which has to be on the same line. -/
def untilQuote? (quote : Char) : List Char → Option (List Char × List Char)
  | [] => none
  | '\\' :: c :: cs =>
    if isBreak c then none
    else (untilQuote? quote cs).map fun (v, rest) => ('\\' :: c :: v, rest)
  | c :: cs =>
    if c = quote then some ([], cs)
    else (untilQuote? quote cs).map fun (v, rest) => (c :: v, rest)

/-- The character that an escape stands for between double quotes. -/
def escaped? : Char → Option Char
  | '\\' => some '\\'
  | '\'' => some '\''
  | '"' => some '"'
  | 'a' => some (Char.ofNat 7)
  | 'b' => some (Char.ofNat 8)
  | 'f' => some (Char.ofNat 12)
  | 'n' => some '\n'
  | 'r' => some '\r'
  | 't' => some '\t'
  | 'v' => some (Char.ofNat 11)
  | _ => none

/-- Replace escapes; between single quotes only quote and backslash are escaped. -/
def unescape (single : Bool) : List Char → List Char
  | [] => []
  | '\\' :: c :: cs =>
    match escaped? c with
    | some d =>
      if !single || c == '\\' || c == '\'' then d :: unescape single cs
      else '\\' :: c :: unescape single cs
    | none => '\\' :: c :: unescape single cs
  | c :: cs => c :: unescape single cs

/-- A plain value: the rest of the line up to a comment, which a blank precedes. `afterGap` says
whether a blank stands before the line. -/
def plainValue (afterGap : Bool) (line : List Char) : List Char :=
  let rec cut (afterGap : Bool) : List Char → List Char
    | [] => []
    | c :: cs => if c = '#' ∧ afterGap then [] else c :: cut (isGap c) cs
  ((cut afterGap line).reverse.dropWhile Text.isSpacing).reverse

/-- The rest of a line that may only hold a comment; `none` if it holds something else. -/
def endOfLine? (cs : List Char) : Option (List Char) :=
  match cs.dropWhile isGap with
  | [] => some []
  | c :: rest => if c = '#' ∨ isBreak c then some (nextLine (c :: rest)) else none

/-- A value and what follows it; `afterGap` says whether a blank stands before it. -/
def value? (afterGap : Bool) : List Char → Option (List Char × List Char)
  | '\'' :: cs => (untilQuote? '\'' cs).map fun (v, rest) => (unescape true v, rest)
  | '"' :: cs => (untilQuote? '"' cs).map fun (v, rest) => (unescape false v, rest)
  | cs => some (plainValue afterGap (cs.takeWhile (!isBreak ·)), cs.dropWhile (!isBreak ·))

/-- A name and what follows it; a comment has no name. -/
def name? : List Char → Option (List Char × List Char)
  | '\'' :: cs =>
    let name := cs.takeWhile (· != '\'')
    if name.isEmpty ∨ name.length = cs.length then none
    else some (name, cs.drop (name.length + 1))
  | cs =>
    let name := cs.takeWhile fun c => c != '=' && c != '#' && !Text.isSpacing c
    if name.isEmpty then none else some (name, cs.drop name.length)

/-- The word `export` and the blanks after it, dropped. -/
def dropExport (cs : List Char) : List Char :=
  let rest := cs.drop 6
  if cs.take 6 = "export".toList ∧ (rest.head?.any isGap) then rest.dropWhile isGap else cs

/-- What was read, or the text that remains where nothing was. -/
def orStop {τ : Type} (cs : List Char) (read : Option τ) : Except (List Char) τ :=
  match read with
  | some x => .ok x
  | none => .error cs

/-- The assignment at the beginning of a text and the text after it; on a line that is none, the
text that remains where reading stopped. -/
def assignment (cs : List Char) : Except (List Char) ((String × Option String) × List Char) := do
  let cs := dropExport cs
  let (name, rest) ← orStop cs (name? cs)
  let rest := rest.dropWhile isGap
  match rest with
  | '=' :: rest =>
    let afterGap := rest.head?.any isGap
    let rest := rest.dropWhile isGap
    let (value, rest) ← orStop rest (value? afterGap rest)
    let rest ← orStop rest (endOfLine? rest)
    pure ((String.ofList name, some (String.ofList value)), rest)
  | rest =>
    let rest ← orStop rest (endOfLine? rest)
    pure ((String.ofList name, none), rest)

/-- All assignments of a text, in order. A text holds at most one for each of its characters. -/
def readAll : (fuel : Nat) → List Char → List (String × Option String)
  | 0, _ => []
  | fuel + 1, cs =>
    match cs.dropWhile Text.isSpacing with
    | [] => []
    | cs =>
      match assignment cs with
      | .ok (a, rest) => a :: readAll fuel rest
      | .error rest => readAll fuel (nextLine rest)

/-- Replace references to names in a value. -/
def expand (lookup : String → Option String) : (fuel : Nat) → List Char → List Char
  | 0, cs => cs
  | _, [] => []
  | fuel + 1, '$' :: '\x7b' :: cs =>
    let body := cs.takeWhile (· != '\x7d')
    if body.length = cs.length then '$' :: '\x7b' :: expand lookup fuel cs
    else
      let name := body.takeWhile (· != ':')
      let rest := body.drop name.length
      let default := if rest.take 2 = [':', '-'] then some (rest.drop 2) else none
      if rest.isEmpty ∨ default.isSome then
        let value := ((lookup (String.ofList name)).map String.toList).getD (default.getD [])
        value ++ expand lookup fuel (cs.drop (body.length + 1))
      -- anything but a name and a default is kept as it stands
      else '$' :: '\x7b' :: expand lookup fuel cs
  | fuel + 1, c :: cs => c :: expand lookup fuel cs

/-- Assign to a name: a name that is there keeps its place. -/
def assign (name : String) (value : Option String) :
    List (String × Option String) → List (String × Option String)
  | [] => [(name, value)]
  | p :: ps => if p.1 = name then (name, value) :: ps else p :: assign name value ps

/-- Carry out assignments, with references replaced by earlier values or by the environment. -/
def carryOut (environment : List (String × String)) (assignments : List (String × Option String)) :
    List (String × Option String) :=
  assignments.foldl
    (fun done (name, value) =>
      let lookup (s : String) : Option String :=
        match done.find? fun p => p.1 == s with
        | some p => some (p.2.getD "")
        | none => (environment.find? fun p => p.1 == s).map Prod.snd
      assign name
        (value.map fun s => String.ofList (expand lookup (s.length + 1) s.toList)) done)
    []

/-- The names that a file mentions, in order, each with its last value if that assigned one. -/
def read (environment : List (String × String)) (text : String) : List (String × Option String) :=
  carryOut environment (readAll (text.length + 1) text.toList)

end Workforce.Assignments
