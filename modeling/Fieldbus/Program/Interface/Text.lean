import Fieldbus.Program.Interface.Basic
import Fieldbus.Program.Machine

/-!
# Texts of command lines

What a command says for itself: how it is used, what its parameters mean, and why it refuses
arguments.  Refused arguments end a program with the status 2.
-/

namespace Fieldbus.Program.Interface

/-- The line that shows how the command is used. -/
def usage (i : Interface) (used : List String) : String :=
  "Usage: " ++ i.name ++
    (if used = [] then " [OPTIONS]" else String.join (used.map (" " ++ ·)))

/-- The paragraphs of an error: what is wrong, a tip, and the usage. -/
def paragraphs (i : Interface) : ArgumentError → List String
  | .unexpected argument similar used =>
    [s!"unexpected argument '{argument}' found"] ++
      (similar.map fun name => s!"  tip: a similar argument exists: '--{name}'").toList ++
      [i.usage used]
  | .surplusValue value flag used =>
    [s!"unexpected value '{value}' for '{flag}' found; no more were expected", i.usage used]
  | .missingValue parameter =>
    [s!"a value is required for '{parameter}' but none was supplied"]
  | .repeated parameter =>
    [s!"the argument '{parameter}' cannot be used multiple times", i.usage []]
  | .invalidValue value parameter reason =>
    [s!"invalid value '{value}' for '{parameter}': {reason}"]

/-- The text of an error. -/
def errorText (i : Interface) (e : ArgumentError) : String :=
  "error: " ++
    String.intercalate "\n\n" (i.paragraphs e ++ ["For more information, try '--help'."]) ++ "\n"

/-- A name and its letter as they stand in the list of options. -/
private def column (letter : Option Char) (text : String) : String :=
  match letter with
  | some c => "-" ++ String.singleton c ++ ", " ++ text
  | none => "    " ++ text

/-- What the list of options says about a parameter. -/
private def explained (environment : List (String × String)) (p : Parameter) : String :=
  let setting := p.setting.map fun v =>
    " [env: " ++ v ++ "=" ++ (environment.lookup v).getD "" ++ "]"
  p.help ++ setting.getD "" ++ " [default: " ++ p.standard ++ "]"

/-- The rows of the list of options. -/
private def rows (i : Interface) (environment : List (String × String)) :
    List (String × String) :=
  i.parameters.map (fun p => (column p.letter p.text, explained environment p)) ++
    i.flags.map fun f => (column (some f.letter) ("--" ++ f.name), f.help)

/-- The help text. -/
def helpText (i : Interface) (environment : List (String × String)) : String :=
  let rows := i.rows environment
  let width := (rows.map (·.1.length)).foldl max 0
  let row := fun (r : String × String) =>
    "  " ++ r.1 ++ String.ofList (List.replicate (width - r.1.length + 2) ' ') ++ r.2 ++ "\n"
  i.about ++ "\n\n" ++ i.usage [] ++ "\n\nOptions:\n" ++ String.join (rows.map row)

/-- The text that shows the version. -/
def versionText (i : Interface) : String :=
  i.name ++ " " ++ i.version.getD "" ++ "\n"

/-- The end of a program whose arguments ask for nothing else, or are refused. -/
def finish (i : Interface) (machine : Machine) : Interruption → Finished
  | .help => { out := i.helpText machine.environment, files := machine.files }
  | .version => { out := i.versionText, files := machine.files }
  | .refused e => { status := 2, error := i.errorText e, files := machine.files }

end Fieldbus.Program.Interface
