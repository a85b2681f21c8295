import Workforce.Number.Quantity
import Workforce.Text.Quoted

/-!
# Literals

A literal is a value as it is written down: nothing, a number, a text, a list or a table of named
values. Matrices are built from literals and compared with them, and messages show them.
-/

namespace Workforce

/-- A value as it is written. -/
inductive Literal where
  | null
  | number (q : Quantity)
  | text (s : String)
  | list (ls : List Literal)
  | table (fields : List (String × Literal))

namespace Literal

instance : Inhabited Literal := ⟨null⟩

/-- An integer literal. -/
abbrev whole (n : Int) : Literal := number (.whole n)

/-- A real literal. -/
abbrev real (x : Float) : Literal := number (.real x)

/-- The name of the kind of a literal, as it stands in messages. -/
def kind : Literal → String
  | null => "NoneType"
  | number (.flag _) => "bool"
  | number (.whole _) => "int"
  | number (.real _) => "float"
  | text _ => "str"
  | list _ => "list"
  | table _ => "dict"

mutual

/-- How a literal is shown. -/
def shown : Literal → String
  | null => "None"
  | number q => q.text
  | text s => Text.quoted s
  | list ls => "[" ++ ", ".intercalate (shownAll ls) ++ "]"
  | table fields => "\x7b" ++ ", ".intercalate (shownFields fields) ++ "\x7d"

/-- The members of a list, each shown. -/
def shownAll : List Literal → List String
  | [] => []
  | l :: ls => l.shown :: shownAll ls

/-- The fields of a table, each shown. -/
def shownFields : List (String × Literal) → List String
  | [] => []
  | (name, l) :: fields => (Text.quoted name ++ ": " ++ l.shown) :: shownFields fields

end

/-- A list shown as the members of a fixed group; a group of one ends in a comma. -/
def shownGroup : List Literal → String
  | [l] => "(" ++ l.shown ++ ",)"
  | ls => "(" ++ ", ".intercalate (shownAll ls) ++ ")"

/-- A literal inside a sentence: a text stands for itself. -/
def plain : Literal → String
  | text s => s
  | l => l.shown

end Literal

end Workforce
