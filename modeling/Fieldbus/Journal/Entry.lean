/-!
# Journal entries

The program reports what it does as entries of a journal: a level, the part of the program that
speaks, a fixed message, and named details in a fixed order.
-/

namespace Fieldbus.Journal

/-- How much an entry matters, the most severe level first. -/
inductive Level where
  | error
  | warn
  | info
  | debug
  | trace
  deriving DecidableEq, Repr

namespace Level

/-- The name of the level in an entry. -/
def name : Level → String
  | .error => "ERROR"
  | .warn => "WARN"
  | .info => "INFO"
  | .debug => "DEBUG"
  | .trace => "TRACE"

/-- The verbosity that a sink needs to show entries of this level. -/
def rank : Level → Nat
  | .error => 1
  | .warn => 2
  | .info => 3
  | .debug => 4
  | .trace => 5

end Level

/-- The value of a detail.  A label is a fixed word, which the console shows in quotes; other text
is shown as it is. -/
inductive Detail where
  | number (value : Nat)
  | text (value : String)
  | label (value : String)
  deriving DecidableEq, Repr

/-- One entry of the journal. -/
structure Entry where
  level : Level
  target : String
  message : String
  details : List (String × Detail) := []
  deriving DecidableEq, Repr

end Fieldbus.Journal
