/-!
# The four tables

A fieldbus device exposes four tables of equally many cells.  Holding and input registers are
words, coils and discrete inputs are bits; holding registers and coils can be written from
outside, the other two only be read.
-/

namespace Fieldbus

/-- One of the four tables of a device. -/
inductive TableKind where
  | holding
  | input
  | coil
  | discrete
  deriving DecidableEq, Repr

namespace TableKind

/-- What one cell of the table holds: a 16-bit word or a bit. -/
@[reducible] def Cell : TableKind → Type
  | .holding | .input => UInt16
  | .coil | .discrete => Bool

/-- The tables that clients may write. -/
def Writable (k : TableKind) : Prop :=
  k = .holding ∨ k = .coil

instance (k : TableKind) : Decidable k.Writable :=
  inferInstanceAs (Decidable (_ ∨ _))

/-- The name of the table in settings files and in the journal. -/
def name : TableKind → String
  | .holding => "holding"
  | .input => "input"
  | .coil => "coil"
  | .discrete => "discrete"

/-- The table with exactly this name. -/
def ofName? (text : String) : Option TableKind :=
  [holding, input, coil, discrete].find? (·.name == text)

/-- The cell that a word stands for; a bit is set by every word but zero. -/
def cellOfWord : (k : TableKind) → UInt16 → k.Cell
  | .holding, w | .input, w => w
  | .coil, w | .discrete, w => w != 0

/-- A cell as it is before anything was stored in it. -/
def blank : (k : TableKind) → k.Cell
  | .holding | .input => (0 : UInt16)
  | .coil | .discrete => false

theorem ofName?_name (k : TableKind) : ofName? k.name = some k := by
  cases k <;> decide

end TableKind

end Fieldbus
