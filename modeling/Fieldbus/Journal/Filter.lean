import Fieldbus.Journal.Entry
import Fieldbus.Text.Unsigned

/-!
# Filters

A filter decides which entries of the journal a sink shows.  It is a list of directives, each of
which sets the verbosity for entries whose target begins with a given text, or for all others.  The
directive with the longest target wins, and of equal ones the last; where none applies nothing is
shown.
-/

namespace Fieldbus.Journal

/-- The verbosity for the targets that begin with `target`, or for those that no other directive
names.  It is the rank of the least severe level shown, zero for none. -/
structure Directive where
  target : Option String := none
  verbosity : Nat
  deriving DecidableEq, Repr

/-- The rules of a sink. -/
abbrev Filter := List Directive

namespace Directive

/-- Names of verbosities, in small letters. -/
def verbosityNames : List (String × Nat) :=
  [("off", 0), ("error", 1), ("warn", 2), ("info", 3), ("debug", 4), ("trace", 5)]

/-- The greatest verbosity: everything is shown. -/
def everything : Nat := 5

/-- A verbosity by its number or by its name, in letters of either size. -/
def verbosity? (text : List Char) : Option Nat :=
  match readUnsigned everything text with
  | .ok n => some n
  | .error _ => verbosityNames.lookup (String.ofList (text.map Char.toLower))

/-- The characters that a directive may begin with: letters, digits, and three signs.  Characters
beyond the first 128 pass for letters. -/
def opensDirective (c : Char) : Bool :=
  c.isAlphanum || c = '-' || c = ':' || c = '_' || 128 ≤ c.toNat

/-- Reads a directive: a verbosity alone; a target alone, of which everything is shown; or a target,
an equality sign, and a verbosity, which may be left out. -/
def parse? (text : List Char) : Option Directive :=
  if ¬ text.head?.any opensDirective ∨ text.contains '[' then none
  else
    let (target, rest) := text.span (· ≠ '=')
    match rest with
    | [] =>
      match verbosity? target with
      | some verbosity => some { verbosity }
      | none => some { target := String.ofList target, verbosity := everything }
    | [_] => some { target := String.ofList target, verbosity := everything }
    | _ :: name =>
      (verbosity? name).map fun verbosity => { target := String.ofList target, verbosity }

/-- Whether the directive applies to a target. -/
def applies (d : Directive) (target : String) : Bool :=
  match d.target with
  | none => true
  | some start => start.toList.isPrefixOf target.toList

/-- How much the directive says about its targets. -/
def weight (d : Directive) : Nat :=
  match d.target with
  | none => 0
  | some start => start.length + 1

end Directive

namespace Filter

/-- The parts of a text between commas. -/
def parts : List Char → List (List Char)
  | [] => [[]]
  | c :: cs =>
    if c = ',' then [] :: parts cs
    else
      match parts cs with
      | [] => [[c]]
      | part :: later => (c :: part) :: later

/-- Reads directives separated by commas.  Empty ones do not count. -/
def parse? (text : String) : Option Filter :=
  ((parts text.toList).filter (· ≠ [])).mapM Directive.parse?

/-- The filter of the program: from the environment if that is given and can be read, otherwise from
the settings, and if those cannot be read either, what operators usually want to see. -/
def choose (environment : Option String) (level : String) : Filter :=
  match environment.bind parse? with
  | some filter => filter
  | none => (parse? (level.map Char.toLower)).getD [{ verbosity := Level.info.rank }]

/-- The directive that decides about a target. -/
def decisive? (f : Filter) (target : String) : Option Directive :=
  (f.filter (·.applies target)).foldl
    (fun best d =>
      match best with
      | none => some d
      | some b => if b.weight ≤ d.weight then some d else some b)
    none

/-- Whether an entry is shown. -/
def shows (f : Filter) (e : Entry) : Bool :=
  match f.decisive? e.target with
  | none => false
  | some d => e.level.rank ≤ d.verbosity

end Filter

end Fieldbus.Journal
