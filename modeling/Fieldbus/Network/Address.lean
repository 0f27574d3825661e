import Fieldbus.Text.Unsigned

/-!
# Addresses

A listener is bound to an address, written as a host and a port.  Binding fails when the host is not
one of the machine's own, when its name means nothing, or when another listener has taken the
address.
-/

namespace Fieldbus

/-- Why a listener cannot be bound; the last for what only the system knows. -/
inductive BindError where
  | inUse
  | notAvailable
  | unknownHost
  | system (text : String)
  deriving DecidableEq, Repr

/-- The wording of the failure. -/
def BindError.message : BindError → String
  | inUse => "Address already in use (os error 98)"
  | notAvailable => "Cannot assign requested address (os error 99)"
  | unknownHost =>
    "failed to lookup address information: Temporary failure in name resolution"
  | system text => text

namespace Address

/-- The numbers of a host written as numbers between dots. -/
def numbers? (host : List Char) : Option (List Nat) :=
  go host.length host
where
  /-- The numbers of at most `limit + 1` parts. -/
  go (limit : Nat) (host : List Char) : Option (List Nat) := do
    let (part, rest) := host.span (· ≠ '.')
    let number ← (readDigits 255 .tooLarge 0 part).toOption
    if part = [] then none
    else
      match limit, rest with
      | _, [] => some [number]
      | limit + 1, _ :: rest => return number :: (← go limit rest)
      | 0, _ => none

/-- Names that every machine has for itself. -/
def ownNames : List String := ["localhost", "::", "[::]", "::1", "[::1]"]

/-- Why a listener cannot be bound to a host, if it cannot.  A machine is itself under every number
that begins with 127, and under zeros alone. -/
def bindError? (host : String) : Option BindError :=
  match numbers? host.toList with
  | some [a, b, c, d] =>
    if a = 127 ∨ (a = 0 ∧ b = 0 ∧ c = 0 ∧ d = 0) then none else some .notAvailable
  | _ => if host ∈ ownNames then none else some .unknownHost

end Address

end Fieldbus
