import Workforce.CommandLine.Options
import Workforce.Decimal.Layout
import Workforce.Text.Wrap

/-!
# Usage and help

The usage names the program and all its options, on as many lines as it takes; the help explains
each option in a column of its own.
-/

namespace Workforce.CommandLine

/-- The width of help texts. -/
def helpWidth : Nat := 78

/-- The column where explanations begin at the latest. -/
def lastHelpColumn : Nat := 24

/-- A program: its name, what it does, and its options. -/
structure Program where
  name : String
  description : String
  options : List OptionSpec

namespace OptionSpec

/-- An option with its value. -/
def withValue (o : OptionSpec) (name : String) : String :=
  if o.takesValue then name ++ " " ++ o.metavar else name

/-- An option in the usage. -/
def inUsage (o : OptionSpec) : String :=
  match o.kind with
  | .help => "[-h]"
  | _ => "[" ++ o.withValue o.name ++ "]"

/-- An option in the help. -/
def inHelp (o : OptionSpec) : String :=
  match o.kind with
  | .help => "-h, " ++ o.name
  | _ => o.withValue o.name

end OptionSpec

namespace Program

/-- The usage of a program, with the end of its last line. -/
def usage (p : Program) : String :=
  let lead := "usage: " ++ p.name ++ " "
  let parts := p.options.map fun o => (" ", o.inUsage)
  let lines := Text.fill ⟨helpWidth, lead.length⟩ lead.length "" parts
  let blank := String.ofList (List.replicate lead.length ' ')
  lead ++ ("\n" ++ blank).intercalate lines ++ "\n"

/-- The lines that explain an option, explanations beginning in a column. -/
def helpLines (column : Nat) (o : OptionSpec) : List String :=
  match Text.wrap (helpWidth - column) o.description with
  | [] => ["  " ++ o.inHelp]
  | first :: rest =>
    (Decimal.padRight column ("  " ++ o.inHelp) ++ first) ::
      rest.map fun line => String.ofList (List.replicate column ' ') ++ line

/-- The help of a program. -/
def help (p : Program) : String :=
  let longest := (p.options.map fun o => o.inHelp.length).foldl max 0
  let column := min (longest + 4) lastHelpColumn
  let lines := p.options.flatMap (helpLines column)
  p.usage ++ "\n" ++ p.description ++ "\n\noptions:\n" ++ "\n".intercalate lines ++ "\n"

/-- The text of a usage error. -/
def refusal (p : Program) (e : UsageError) : String :=
  p.usage ++ s!"{p.name}: error: {e.message}\n"

end Program

end Workforce.CommandLine
