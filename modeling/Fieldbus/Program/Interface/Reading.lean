import Fieldbus.Program.Interface.Basic
import Fieldbus.Text.Similarity

/-!
# Reading command lines

Arguments are read from the front, and the first that cannot stand ends the reading.  What they
leave open is taken from the environment, and after that from the standard values.
-/

namespace Fieldbus.Program

/-- The values taken so far, in order, and a parameter whose value is not settled: it has yet to
come, or may turn out to be wrong. -/
structure Progress where
  taken : List (Parameter × String) := []
  pending : Option (Parameter × Option String) := none

namespace Progress

/-- The parameter has a value. -/
def has (s : Progress) (p : Parameter) : Bool :=
  s.taken.any (·.1.name = p.name)

/-- Takes a value, unless the parameter has one already or the value is wrong. -/
def take (s : Progress) (p : Parameter) (value : String) : Except Interruption Progress :=
  if s.has p then .error (.refused (.repeated p.text))
  else
    match p.rule.fault? value with
    | some .missing => .error (.refused (.missingValue p.text))
    | some (.invalid reason) => .error (.refused (.invalidValue value p.text reason))
    | none => .ok { taken := s.taken ++ [(p, value)] }

/-- Settles the value that is pending. -/
def settle (s : Progress) : Except Interruption Progress :=
  match s.pending with
  | none => .ok s
  | some (p, none) => .error (.refused (.missingValue p.text))
  | some (p, some value) => s.take p value

/-- The parameters that have been used, right or wrong; one that was given twice does not count. -/
def used (s : Progress) : List String :=
  let names := s.taken.map (·.1.text)
  match s.pending with
  | some (p, some _) => if s.has p then names.erase p.text else names ++ [p.text]
  | _ => names

/-- Awaits the value of a parameter. -/
def await (s : Progress) (p : Parameter) : Except Interruption Progress := do
  return { (← s.settle) with pending := some (p, none) }

/-- Takes a value that stands in the same argument as its parameter. -/
def attach (s : Progress) (p : Parameter) (value : List Char) : Except Interruption Progress := do
  (← s.settle).take p (String.ofList value)

end Progress

namespace Interface

/-- The long names of a command, with the texts that stand for them in messages. -/
def names (i : Interface) : List (String × String) :=
  i.parameters.map (fun p => (p.name, p.text)) ++ i.flags.map fun f => (f.name, "--" ++ f.name)

/-- The error for a long name that the command does not have. -/
def unknown (i : Interface) (s : Progress) (name : String) : ArgumentError :=
  match mostSimilar? name (i.names.map (·.1)) with
  | none => .unexpected ("--" ++ name) none s.used
  | some similar =>
    let text := (i.names.lookup similar).getD similar
    .unexpected ("--" ++ name) (some similar)
      (if text ∈ s.used then s.used else s.used ++ [text])

/-- Reads an argument with a long name, behind its two strokes. -/
def readLong (i : Interface) (s : Progress) (argument : List Char) :
    Except Interruption Progress := do
  let (name, value) := argument.span (· ≠ '=')
  let name := String.ofList name
  match i.parameters.find? (·.name = name), i.flags.find? (·.name = name), value with
  | some p, _, [] => s.await p
  | some p, _, _ :: value => s.attach p value
  | none, some flag, [] =>
    let _ ← s.settle
    throw flag.asks
  | none, some flag, _ :: value =>
    let flag := "--" ++ flag.name
    throw (.refused
      (.surplusValue (String.ofList value) flag (s.taken.map (·.1.text) ++ [flag])))
  | none, none, _ => throw (.refused (i.unknown s name))

/-- Reads an argument with a letter, behind its stroke. -/
def readLetter (i : Interface) (s : Progress) (letter : Char) (rest : List Char) :
    Except Interruption Progress := do
  match i.parameters.find? (·.letter = some letter), i.flags.find? (·.letter = letter), rest with
  | some p, _, [] => s.await p
  | some p, _, '=' :: value => s.attach p value
  | some p, _, value => s.attach p value
  | none, some flag, _ =>
    let _ ← s.settle
    throw flag.asks
  | none, none, _ => throw (.refused (.unexpected (String.ofList ['-', letter]) none []))

/-- Reads an argument without a name. -/
def readPlain (s : Progress) (argument : String) : Except Interruption Progress :=
  match s.pending with
  | some (p, none) => .ok { s with pending := some (p, some argument) }
  | _ => .error (.refused (.unexpected argument none []))

/-- Reads arguments.  Behind two strokes alone no argument is expected. -/
def readAll (i : Interface) (s : Progress) : List String → Except Interruption Progress
  | [] => s.settle
  | ["--"] => s.settle
  | "--" :: argument :: _ => .error (.refused (.unexpected argument none []))
  | argument :: rest => do
    let s ← match argument.toList with
      | '-' :: '-' :: long => i.readLong s long
      | '-' :: letter :: letters => i.readLetter s letter letters
      | _ => readPlain s argument
    i.readAll s rest

/-- Takes values from the environment for parameters that have none. -/
def readEnvironment (environment : List (String × String)) (s : Progress) :
    List Parameter → Except Interruption Progress
  | [] => .ok s
  | p :: ps => do
    let s ← match p.setting.bind (environment.lookup ·) with
      | some value => if s.has p then pure s else s.take p value
      | none => pure s
    readEnvironment environment s ps

/-- The value of every parameter by its name: from the arguments, else from the environment, else
the standard one. -/
def read (i : Interface) (environment : List (String × String)) (arguments : List String) :
    Except Interruption (List (String × String)) := do
  let s ← i.readAll {} arguments
  let s ← readEnvironment environment s i.parameters
  return i.parameters.map fun p => (p.name, (s.taken.lookup p).getD p.standard)

end Interface

end Fieldbus.Program
