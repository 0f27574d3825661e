/-!
# Whole numbers in text

Digits of the decimal system are read from the front, and the number must not grow beyond a limit on
the way.  A sign in front is read too.
-/

namespace Fieldbus

/-- Why a text is no whole number within a limit. -/
inductive NumberFault where
  | empty
  | noDigit
  | tooLarge
  | tooSmall
  deriving DecidableEq, Repr

/-- The wording of the fault. -/
def NumberFault.message : NumberFault → String
  | empty => "cannot parse integer from empty string"
  | noDigit => "invalid digit found in string"
  | tooLarge => "number too large to fit in target type"
  | tooSmall => "number too small to fit in target type"

/-- Reads digits behind a number that has been read so far; beyond `limit` it overflows.  What comes
first, a character that is no digit or an overflow, is the fault. -/
def readDigits (limit : Nat) (overflow : NumberFault) (number : Nat) :
    List Char → Except NumberFault Nat
  | [] => .ok number
  | c :: cs =>
    if ¬ c.isDigit then .error .noDigit
    else if limit < number * 10 + (c.toNat - '0'.toNat) then .error overflow
    else readDigits limit overflow (number * 10 + (c.toNat - '0'.toNat)) cs

/-- Reads at least one digit. -/
def readNumber (limit : Nat) (overflow : NumberFault) : List Char → Except NumberFault Nat
  | [] => .error .noDigit
  | digits => readDigits limit overflow 0 digits

/-- Reads a number without a sign or with a plus, up to `limit`. -/
def readUnsigned (limit : Nat) : List Char → Except NumberFault Nat
  | [] => .error .empty
  | '+' :: digits => readNumber limit .tooLarge digits
  | digits => readNumber limit .tooLarge digits

/-- Reads a number with or without a sign, from `-limit - 1` to `limit`. -/
def readSigned (limit : Nat) : List Char → Except NumberFault Int
  | '-' :: digits => (readNumber (limit + 1) .tooSmall digits).map fun n => -(n : Int)
  | digits => (readUnsigned limit digits).map fun n => (n : Int)

end Fieldbus
