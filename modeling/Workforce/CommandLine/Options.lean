import Workforce.Decimal.Reader
import Workforce.Number.Quantity
import Workforce.Text.Quoted

/-!
# Options

A program takes options with long names, which may be cut short while they stay unambiguous. An
option is a flag, or takes an integer or a real number, given as the next argument or after an
equals sign. All arguments are told apart before the first of them is read.
-/

namespace Workforce.CommandLine

/-- What an option takes. -/
inductive OptionKind where
  | help
  | flag
  | integer
  | real
deriving DecidableEq, Repr

/-- An option of a program. -/
structure OptionSpec where
  /-- The long name, with its hyphens. -/
  name : String
  kind : OptionKind
  /-- How the value is called in the usage. -/
  metavar : String
  /-- What the option does, in a sentence. -/
  description : String

/-- The value of an option. -/
inductive OptionValue where
  | given
  | integer (n : Int)
  | real (x : Float)

/-- Why arguments are refused. -/
inductive UsageError where
  | ambiguous (argument : String) (matched : List String)
  | expectedValue (option : String)
  | invalidValue (option kind value : String)
  | ignoredValue (option value : String)
  | unrecognized (arguments : List String)
  /-- A number that has to be non-negative is not. -/
  | negative (option : String)

namespace UsageError

def message : UsageError → String
  | ambiguous argument matched =>
    let names := ", ".intercalate matched
    s!"ambiguous option: {argument} could match {names}"
  | expectedValue option => s!"argument {option}: expected one argument"
  | invalidValue option kind value =>
    s!"argument {option}: invalid {kind} value: {Text.quoted value}"
  | ignoredValue option value =>
    s!"argument {option}: ignored explicit argument {Text.quoted value}"
  | unrecognized arguments =>
    let names := " ".intercalate arguments
    s!"unrecognized arguments: {names}"
  | negative option => s!"{option} must be non-negative"

end UsageError

namespace OptionSpec

/-- The name of an option in error messages. -/
def errorName (o : OptionSpec) : String :=
  match o.kind with
  | .help => "-h/" ++ o.name
  | _ => o.name

/-- Whether an option takes a value. -/
def takesValue (o : OptionSpec) : Bool :=
  match o.kind with
  | .integer => true
  | .real => true
  | _ => false

/-- The value that a text gives to an option. Integers of more than 4300 digits are refused. -/
def read (o : OptionSpec) (s : String) : Except UsageError OptionValue :=
  match o.kind with
  | .integer =>
    match Decimal.readInt? s with
    | some n =>
      if (s.toList.filter fun c => (Text.digit? c).isSome).length ≤ 4300 then .ok (.integer n)
      else .error (.invalidValue o.name "int" s)
    | none => .error (.invalidValue o.name "int" s)
  | .real =>
    match Decimal.readFloat? s with
    | some x => .ok (.real x)
    | none => .error (.invalidValue o.name "float" s)
  | _ => .ok .given

end OptionSpec

/-- What an argument is, before it is read. -/
inductive Argument where
  /-- An option, with the value that follows its name after an equals sign, if any. -/
  | option (o : OptionSpec) (value : Option String)
  /-- A text that looks like an option and is none. -/
  | unknown (s : String)
  /-- Anything else. -/
  | plain (s : String)
  /-- The end of the options. -/
  | separator

/-- Whether a text is a negative number and so no option. A line may end after it. -/
def isNegativeNumber (cs : List Char) : Bool :=
  let isDigit (c : Char) : Bool := (Text.digit? c).isSome
  let line := if cs.getLast? = some '\n' then cs.dropLast else cs
  match line with
  | '-' :: number =>
    match number.dropWhile isDigit with
    | [] => !number.isEmpty
    | '.' :: fraction => !fraction.isEmpty && fraction.all isDigit
    | _ => false
  | _ => false

/-- The text before and after the first equals sign. -/
def splitEquals (s : String) : String × Option String :=
  let cs := s.toList
  let name := cs.takeWhile (· != '=')
  if name.length = cs.length then (s, none)
  else (String.ofList name, some (String.ofList (cs.drop (name.length + 1))))

/-- What a text is that begins with a hyphen and is not a full name of an option. -/
def classifyRest (s : String) : Argument :=
  if isNegativeNumber s.toList || s.toList.contains ' ' then .plain s else .unknown s

/-- What remains of a value given to the option of short name `h`, each of whose letters may be
that name once more. -/
def afterShortName? : List Char → Option String
  | ['h'] => none
  | 'h' :: cs => afterShortName? cs
  | cs => some (String.ofList cs)

/-- What an argument is. -/
def classify (options : List OptionSpec) (s : String) : Except UsageError Argument :=
  match s.toList with
  | '-' :: '-' :: _ =>
    let (name, value) := splitEquals s
    match options.find? fun o => o.name == name with
    | some o => .ok (.option o value)
    | none =>
      -- a name may be cut short, as long as only one option begins with it
      match options.filter fun o => name.isPrefixOf o.name with
      | [] => .ok (classifyRest s)
      | [o] => .ok (.option o value)
      | os => .error (.ambiguous s (os.map OptionSpec.name))
  | '-' :: 'h' :: rest =>
    match options.find? fun o => o.kind = .help with
    | some o =>
      match rest with
      | [] => .ok (.option o none)
      | '=' :: value => .ok (.option o (afterShortName? value))
      | letters => .ok (.option o (afterShortName? letters))
    | none => .ok (classifyRest s)
  | '-' :: _ :: _ => .ok (classifyRest s)
  | _ => .ok (.plain s)

/-- What all arguments are; after a separator every argument is plain. -/
def classifyAll (options : List OptionSpec) : List String → Except UsageError (List Argument)
  | [] => .ok []
  | "--" :: rest => .ok (.separator :: rest.map .plain)
  | s :: rest => do
    let a ← classify options s
    pure (a :: (← classifyAll options rest))

/-- What arguments ask for. -/
inductive Invocation where
  | help
  /-- Values of options, the last one first. -/
  | run (values : List (String × OptionValue))

/-- Read arguments in order; `extras` are those that belong to no option, the last one first. -/
def readArguments (values : List (String × OptionValue)) (extras : List String) :
    List Argument → Except UsageError Invocation
  | [] => if extras.isEmpty then .ok (.run values) else .error (.unrecognized extras.reverse)
  | .separator :: rest => readArguments values ("--" :: extras) rest
  | .plain s :: rest => readArguments values (s :: extras) rest
  | .unknown s :: rest => readArguments values (s :: extras) rest
  | .option o (some value) :: rest =>
    if o.takesValue then do
      let v ← o.read value
      readArguments ((o.name, v) :: values) extras rest
    else .error (.ignoredValue o.errorName value)
  | .option o none :: rest =>
    if o.takesValue then
      match rest with
      | .plain value :: rest => do
        let v ← o.read value
        readArguments ((o.name, v) :: values) extras rest
      | _ => .error (.expectedValue o.name)
    else
      match o.kind with
      | .help => .ok .help
      | _ => readArguments ((o.name, .given) :: values) extras rest

/-- Read the arguments of a program. -/
def parse (options : List OptionSpec) (arguments : List String) : Except UsageError Invocation := do
  readArguments [] [] (← classifyAll options arguments)

namespace Invocation

/-- The integer given to an option, or a default. -/
def integerD (values : List (String × OptionValue)) (name : String) (default : Int) : Int :=
  match (values.find? fun p => p.1 == name).map Prod.snd with
  | some (.integer n) => n
  | _ => default

/-- The real number given to an option, or a default. -/
def realD (values : List (String × OptionValue)) (name : String) (default : Float) : Float :=
  match (values.find? fun p => p.1 == name).map Prod.snd with
  | some (.real x) => x
  | _ => default

/-- Whether a flag is given. -/
def isGiven (values : List (String × OptionValue)) (name : String) : Bool :=
  values.any fun p => p.1 == name

end Invocation

end Workforce.CommandLine
