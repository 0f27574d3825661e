/-!
# Pipes

A pipe carries bytes one way, first in, first out, and holds at most `capacity` of them.  Once it is
closed it takes no more; what it holds can still be read.
-/

namespace Fieldbus

/-- One direction of a line. -/
structure Pipe where
  capacity : Nat
  held : List UInt8 := []
  closed : Bool := false
  deriving DecidableEq, Repr

namespace Pipe

/-- The number of bytes that still fit. -/
def room (p : Pipe) : Nat := p.capacity - p.held.length

/-- Puts in as many of the bytes as fit. -/
def push (p : Pipe) (bytes : List UInt8) : Pipe :=
  { p with held := p.held ++ bytes.take p.room }

/-- Takes out at most `n` bytes. -/
def pop (p : Pipe) (n : Nat) : List UInt8 × Pipe :=
  (p.held.take n, { p with held := p.held.drop n })

/-- The pipe without any bytes. -/
def drained (p : Pipe) : Pipe :=
  { p with held := [] }

/-- The pipe takes no more bytes. -/
def close (p : Pipe) : Pipe :=
  { p with closed := true }

/-- Bytes are there, or none will come. -/
def Readable (p : Pipe) : Prop := p.held ≠ [] ∨ p.closed = true

instance (p : Pipe) : Decidable p.Readable := inferInstanceAs (Decidable (_ ∨ _))

end Pipe

end Fieldbus
