import Fieldbus.Json.Reader

/-!
# Numbers in a document

A number is a sign, digits without a needless zero in front, and perhaps decimals and an exponent.
It is kept as an integer when it has neither of these and fits in 64 bits; otherwise it becomes a
floating point number, made from as many digits as fit in 64 bits and a power of ten.  `readNumber`
gives the value; `skipNumber` only checks the form.
-/

namespace Fieldbus.Json

/-- A number as it was read. -/
inductive Number where
  | natural (value : UInt64)
  | negative (magnitude : UInt64)
  | float (bits : UInt64)
  deriving DecidableEq, Repr

/-- What the number is called when it stands where something else is expected. -/
def Number.found : Number → Found
  | natural value => .integer value.toNat
  | negative magnitude => .integer (-magnitude.toNat)
  | float bits => .float bits

/-- Whether the character is a decimal digit. -/
def isDigit (c : Char) : Bool := '0' ≤ c && c ≤ '9'

/-- The value of a decimal digit. -/
def digitValue (c : Char) : Nat := c.toNat - '0'.toNat

theorem length_dropWhile_isDigit_le (s : List Char) :
    (s.dropWhile isDigit).length ≤ s.length :=
  (List.dropWhile_sublist isDigit).length_le

/-- The digits in front of a text. -/
def readDigits (s : List Char) : Taken (s.length + 1) (List Char) :=
  ⟨s.takeWhile isDigit, s.dropWhile isDigit, Nat.lt_succ_of_le (length_dropWhile_isDigit_le s)⟩

/-- The greatest integer that is kept digit by digit. -/
def maxSignificand : Nat := UInt64.size - 1

/-- Digits on their way into a number: the significand, the power of ten that belongs to it, and
whether it still takes digits. -/
structure Significand where
  value : Nat := 0
  exponent : Int := 0
  room : Bool := true

namespace Significand

/-- Takes a digit before the point; one that does not fit only raises the power of ten. -/
def pushWhole (s : Significand) (digit : Char) : Significand :=
  let value := s.value * 10 + digitValue digit
  if s.room && value ≤ maxSignificand then { s with value }
  else { s with exponent := s.exponent + 1, room := false }

/-- Takes a digit behind the point; from the first one on that does not fit all are dropped. -/
def pushFraction (s : Significand) (digit : Char) : Significand :=
  let value := s.value * 10 + digitValue digit
  if s.room && value ≤ maxSignificand then { s with value, exponent := s.exponent - 1 }
  else { s with room := false }

end Significand

/-- The floating point number `value * 10 ^ exponent`, with a rounding at each step, or nothing if
it is too large.  A power of ten beyond 308 is divided away in steps. -/
def scaleFloat (value : Float) (exponent : Int) : Option Float :=
  if exponent.natAbs ≤ 308 then
    let power := Float.ofScientific 1 false exponent.natAbs
    if 0 ≤ exponent then
      let product := value * power
      if product.isInf then none else some product
    else some (value / power)
  else if value == 0.0 then some value
  else if 0 ≤ exponent then none
  else scaleFloat (value / 1e308) (exponent + 308)
termination_by exponent.natAbs
decreasing_by omega

/-- The number with this sign, significand and power of ten. -/
def makeFloat (negative : Bool) (significand : Nat) (exponent : Int) (rest : List Char) :
    Except Failure Number :=
  match scaleFloat significand.toUInt64.toFloat exponent with
  | some value => .ok (.float (if negative then -value else value).toBits)
  | none => .error (.before .numberOutOfRange rest)

/-- The greatest exponent that is kept. -/
def maxExponent : Nat := 0x7fffffff

/-- The value of exponent digits as far as it can be kept, and the digits after the first that
would make it too large. -/
def exponentValue (value : Nat) : List Char → Nat × Option (List Char)
  | [] => (value, none)
  | digit :: digits =>
    let next := value * 10 + digitValue digit
    if maxExponent < next then (value, some digits) else exponentValue next digits

/-- Keeps an exponent within 32 bits. -/
def clampExponent (exponent : Int) : Int :=
  max (-(maxExponent : Int) - 1) (min maxExponent exponent)

/-- The sign of an exponent, true if it says minus. -/
def readSign : (s : List Char) → Taken (s.length + 1) Bool
  | '+' :: s => ⟨false, s, by simp only [List.length_cons]; omega⟩
  | '-' :: s => ⟨true, s, by simp only [List.length_cons]; omega⟩
  | s => ⟨false, s, lt_succ_length s⟩

/-- The number with an exponent, made from its digits. -/
def scaled (negative : Bool) (significand : Significand) (down : Bool) (digits rest : List Char) :
    Except Failure Number :=
  match exponentValue 0 digits with
  | (value, none) =>
    let shift : Int := if down then -(value : Int) else value
    makeFloat negative significand.value (clampExponent (significand.exponent + shift)) rest
  | (_, some dropped) =>
    if significand.value ≠ 0 ∧ ¬ down then .error (.before .numberOutOfRange (dropped ++ rest))
    else .ok (.float (if negative then -0.0 else 0.0 : Float).toBits)

/-- Reads what follows the letter of an exponent, and makes the number. -/
def readExponent (negative : Bool) (significand : Significand) (s : List Char) :
    Except Failure (Taken (s.length + 1) Number) :=
  let sign := readSign s
  let digits := readDigits sign.rest
  if digits.value = [] then
    .error (if digits.rest = [] then .before .endOfValue [] else .on .invalidNumber digits.rest)
  else do
    let number ← scaled negative significand sign.value digits.value digits.rest
    return ⟨number, digits.rest, by
      have := sign.shorter
      have := digits.shorter
      omega⟩

/-- The number without an exponent, made from its digits. -/
def unscaled (negative : Bool) (significand : Significand) (rest : List Char) :
    Except Failure Number :=
  if significand.room then
    if ¬ negative then .ok (.natural significand.value.toUInt64)
    else if 0 < significand.value ∧ significand.value ≤ 0x8000000000000000 then
      .ok (.negative significand.value.toUInt64)
    else .ok (.float (-significand.value.toUInt64.toFloat).toBits)
  else makeFloat negative significand.value significand.exponent rest

/-- Reads what follows the digits of a number, and makes the number. -/
def readScale (negative : Bool) (significand : Significand) :
    (s : List Char) → Except Failure (Taken (s.length + 1) Number)
  | '.' :: s =>
    let digits := readDigits s
    have := digits.shorter
    if digits.value = [] then
      .error (if digits.rest = [] then .before .endOfValue [] else .on .invalidNumber digits.rest)
    else
      let significand :=
        digits.value.foldl Significand.pushFraction { significand with room := true }
      match h : digits.rest with
      | 'e' :: rest | 'E' :: rest => do
        return (← readExponent negative significand rest).widen (by
          rw [h] at this
          simp only [List.length_cons] at this ⊢
          omega)
      | rest => do
        let number ← makeFloat negative significand.value significand.exponent rest
        return ⟨number, rest, by
          rw [h] at this
          simp only [List.length_cons]
          omega⟩
  | 'e' :: s | 'E' :: s => do
    return (← readExponent negative significand s).widen (succ_length_le_succ s)
  | s => do return ⟨← unscaled negative significand s, s, lt_succ_length s⟩

/-- Reads a number from its first digit on. -/
def readNumber (negative : Bool) : Reader Number
  | [] => .error (.before .endOfValue [])
  | '0' :: s =>
    if (readDigits s).value = [] then do
      return (← readScale negative {} s).widen (by simp)
    else .error (.on .invalidNumber s)
  | c :: s =>
    if isDigit c then do
      let digits := readDigits s
      have := digits.shorter
      let significand := (c :: digits.value).foldl Significand.pushWhole {}
      return (← readScale negative significand digits.rest).widen (by
        simp only [List.length_cons]
        omega)
    else .error (.on .invalidNumber (c :: s))

/-- Passes over what follows the letter of an exponent. -/
def skipExponent (s : List Char) : Except Failure (Taken (s.length + 1) Unit) :=
  let sign := readSign s
  let digits := readDigits sign.rest
  if digits.value = [] then .error (.on .invalidNumber digits.rest)
  else .ok ⟨(), digits.rest, by
    have := sign.shorter
    have := digits.shorter
    omega⟩

/-- Passes over what follows the digits of a number. -/
def skipScale : (s : List Char) → Except Failure (Taken (s.length + 1) Unit)
  | '.' :: s =>
    let digits := readDigits s
    have := digits.shorter
    if digits.value = [] then .error (.on .invalidNumber digits.rest)
    else
      match h : digits.rest with
      | 'e' :: rest | 'E' :: rest => do
        return (← skipExponent rest).widen (by
          rw [h] at this
          simp only [List.length_cons] at this ⊢
          omega)
      | rest =>
        .ok ⟨(), rest, by
          rw [h] at this
          simp only [List.length_cons]
          omega⟩
  | 'e' :: s | 'E' :: s => do return (← skipExponent s).widen (succ_length_le_succ s)
  | s => .ok ⟨(), s, lt_succ_length s⟩

/-- Passes over a number from its first digit on. -/
def skipNumber : Reader Unit
  | [] => .error (.before .invalidNumber [])
  | '0' :: s =>
    if (readDigits s).value = [] then do return (← skipScale s).widen (by simp)
    else .error (.on .invalidNumber s)
  | c :: s =>
    if isDigit c then do
      let digits := readDigits s
      have := digits.shorter
      return (← skipScale digits.rest).widen (by
        simp only [List.length_cons]
        omega)
    else .error (.on .invalidNumber (c :: s))

end Fieldbus.Json
