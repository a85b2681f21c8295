import Workforce.Text.Search
import Workforce.Workspace.Effect

/-!
# Lists, texts and tables

A list holds items in places, a text characters, and a table fields under keys. Places are counted
from the end when they are negative. New lists share their items with the lists that they are made
from.
-/

namespace Workforce.Content

/-- The place that a literal names among `size` places. -/
def place (size : Nat) (outside : CollectionError) (wrongKind : String → CollectionError)
    (index : Literal) : Except CommandError Nat :=
  match index with
  | .number q =>
    match q.toInt? with
    | none => .error (.collection (wrongKind index.kind))
    | some n =>
      let j := if n < 0 then n + size else n
      if !Quantity.isPlace n then .error (.collection .tooLarge)
      else if 0 ≤ j ∧ j < size then .ok j.toNat
      else .error (.collection outside)
  | .list _ => .error (.collection (wrongKind "tuple"))
  | l => .error (.collection (wrongKind l.kind))

/-- Check that an integer is in the range of numbers that count places. -/
def checkPlace : Literal → Except CommandError Unit
  | .number q => if q.toInt?.all Quantity.isPlace then .ok () else .error (.collection .tooLarge)
  | _ => .ok ()

/-- Check that a literal can be the key of a field, which lists and tables cannot. -/
def checkKey : Literal → Except CommandError Unit
  | .list _ => .error (.unhashable "list")
  | .table _ => .error (.unhashable "dict")
  | _ => .ok ()

/-- The key that an index stands for; several literals are one key. -/
def keyOf : Literal → Except CommandError Literal
  | .list ls => do
    ls.forM checkKey
    pure (.list ls)
  | l => do
    checkKey l
    pure l

/-- The field with a key, if there is one. -/
def field? (fields : List (Literal × Content)) (key : Literal) : Option Content :=
  (fields.find? fun p => p.1.equals key).map Prod.snd

/-- Characters as atoms. -/
def characters (cs : List Char) : List Draft := cs.map fun c => .atom (.text c.toString)

/-- The keys of fields. -/
def keys (fields : List (Literal × Content)) : List Draft := fields.map fun p => .ofLiteral p.1

/-- What a collection holds at an index. -/
def getItem (index : Literal) : Content → Except CommandError Draft
  | list _ items => do
    let k ← place items.length .noItem .listPlace index
    match items[k]? with
    | some c => pure c.draft
    | none => .error (.collection .noItem)
  | table _ fields => do
    let key ← keyOf index
    match field? fields key with
    | some c => pure c.draft
    | none => .error (.collection (.noKey key.shownKey))
  | atom (.text s) => do
    let k ← place s.length .noCharacter .textPlace index
    match s.toList[k]? with
    | some c => pure (.atom (.text c.toString))
    | none => .error (.collection .noCharacter)
  | c => .error (.notIndexed c.kindText)

/-- Put a value into a collection. Texts and views have places, but no value can be put there. -/
def setItem (index value : Literal) : Content → Except CommandError Effect
  | list id items => do
    pure (.putItem id (← place items.length .noPlace .listPlace index) (.ofLiteral value))
  | table id _ => do
    pure (.putField id (← keyOf index) (.ofLiteral value))
  | atom (.text s) => do
    checkPlace index
    .error (.readOnly (Literal.text s).kind)
  | line _ view _ => do
    checkPlace index
    .error (.readOnly view.axis.viewText)
  | c => .error (.readOnly c.kindText)

/-- What a collection holds, from the first to the last: a table its keys. -/
def items? : Content → Option (List Draft)
  | list _ items => some (items.map draft)
  | table _ fields => some (keys fields)
  | atom (.text s) => some (characters s.toList)
  | _ => none

/-- A new collection with the same items. -/
def copy? : Content → Option Draft
  | list _ items => some (.list (items.map draft))
  | table _ fields => some (.table (fields.map fun (key, c) => (key, c.draft)))
  | _ => none

/-- The number of items of a collection. -/
def length? : Content → Option Nat
  | list _ items => some items.length
  | table _ fields => some fields.length
  | atom (.text s) => some s.length
  | _ => none

/-- Whether a collection holds a value. A text holds the texts that occur in it, a table the keys
of its fields. -/
def holds (c value : Content) : Except CommandError Bool :=
  match c with
  | list _ items => .ok (items.any fun c => c.equals value)
  | table _ fields => do
    checkKey value.literal
    pure (field? fields value.literal).isSome
  | atom (.text s) =>
    match value with
    | atom (.text part) => .ok (Text.find? part.toList s.toList).isSome
    | v => .error (.collection (.notInText v.kindText))
  | c => .error (.collection (.notAContainer c.kindText))

/-- The first place of a value in a collection. -/
def placeOf (c value : Content) : Except CommandError Nat :=
  match c with
  | list _ items =>
    match items.findIdx? fun c => c.equals value with
    | some k => .ok k
    | none => .error (.collection (.notHeld value.shown))
  | atom (.text s) =>
    match value with
    | atom (.text part) =>
      match Text.find? part.toList s.toList with
      | some k => .ok k
      | none => .error (.collection .noOccurrence)
    | v => .error (.collection (.notText v.kindText))
  | c => .error (.noMember c.kindText "index")

/-- How often a collection holds a value. -/
def countOf (c value : Content) : Except CommandError Nat :=
  match c with
  | list _ items => .ok (items.countP fun c => c.equals value)
  | atom (.text s) =>
    match value with
    | atom (.text part) => .ok (Text.count part.toList s.toList)
    | v => .error (.collection (.notText v.kindText))
  | c => .error (.noMember c.kindText "count")

end Workforce.Content
