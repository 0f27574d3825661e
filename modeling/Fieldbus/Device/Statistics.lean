/-!
# Request statistics

Four counters of 64 bits: the accesses that a device was asked for, the ones it refused, and of
those the ones for another unit and the ones beyond the tables.
-/

namespace Fieldbus

/-- How many accesses were asked for and refused. -/
structure Statistics where
  requests : UInt64 := 0
  errors : UInt64 := 0
  identityErrors : UInt64 := 0
  addressErrors : UInt64 := 0
  deriving DecidableEq, Repr

namespace Statistics

/-- One more access was asked for and admitted. -/
def admitted (s : Statistics) : Statistics :=
  { s with requests := s.requests + 1 }

/-- One more access was asked for and refused because it was for another unit. -/
def refusedForUnit (s : Statistics) : Statistics :=
  { s with
    requests := s.requests + 1
    errors := s.errors + 1
    identityErrors := s.identityErrors + 1 }

/-- One more access was asked for and refused because of its range. -/
def refusedForRange (s : Statistics) : Statistics :=
  { s with
    requests := s.requests + 1
    errors := s.errors + 1
    addressErrors := s.addressErrors + 1 }

end Statistics

end Fieldbus
