import Fieldbus.Text.Unsigned

/-!
# Command lines

A command has parameters, each with a long name, perhaps a letter and an environment variable, and a
standard value; and it answers requests for help and, if it has one, for its version.
-/

namespace Fieldbus.Program

/-! ## Parameters -/

/-- What the value of a parameter has to be: any text, a path, a number up to a limit, or a number
of 64 bits. -/
inductive ValueRule where
  | text
  | path
  | number (limit : Nat)
  | wideNumber
  deriving DecidableEq, Repr

/-- What is wrong with a value. -/
inductive ValueFault where
  | missing
  | invalid (reason : String)
  deriving DecidableEq, Repr

/-- The fault of a value, if it has one.  A number is read with its sign before it is compared with
the limit. -/
def ValueRule.fault? (rule : ValueRule) (value : String) : Option ValueFault :=
  match rule with
  | text => none
  | path => if value = "" then some .missing else none
  | number limit =>
    match readSigned 0x7fffffffffffffff value.toList with
    | .error fault => some (.invalid fault.message)
    | .ok n =>
      if 0 ≤ n ∧ n ≤ limit then none else some (.invalid s!"{n} is not in 0..={limit}")
  | wideNumber =>
    match readUnsigned (UInt64.size - 1) value.toList with
    | .error fault => some (.invalid fault.message)
    | .ok _ => none

/-- A parameter of a command; `setting` is the name of the environment variable that sets it. -/
structure Parameter where
  name : String
  letter : Option Char := none
  placeholder : String
  rule : ValueRule
  help : String
  setting : Option String := none
  standard : String
  deriving DecidableEq, Repr

/-- The parameter as it stands in messages. -/
def Parameter.text (p : Parameter) : String :=
  "--" ++ p.name ++ " <" ++ p.placeholder ++ ">"

/-- A command. -/
structure Interface where
  name : String
  about : String
  version : Option String := none
  parameters : List Parameter
  deriving DecidableEq, Repr

/-! ## What may come of the arguments -/

/-- Why arguments are refused.  `used` are the parameters that stand before the argument. -/
inductive ArgumentError where
  | unexpected (argument : String) (similar : Option String) (used : List String)
  | surplusValue (value flag : String) (used : List String)
  | missingValue (parameter : String)
  | repeated (parameter : String)
  | invalidValue (value parameter reason : String)
  deriving DecidableEq, Repr

/-- What ends the reading before its time. -/
inductive Interruption where
  | help
  | version
  | refused (reason : ArgumentError)
  deriving DecidableEq, Repr

/-- A flag: its name, its letter, and what it asks for. -/
structure Flag where
  name : String
  letter : Char
  asks : Interruption
  help : String
  deriving DecidableEq, Repr

/-- The flags of a command. -/
def Interface.flags (i : Interface) : List Flag :=
  ⟨"help", 'h', .help, "Print help"⟩ ::
    (if i.version.isSome then [⟨"version", 'V', .version, "Print version"⟩] else [])

end Fieldbus.Program
