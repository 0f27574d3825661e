/-!
# The shortest decimal of a binary fraction

A floating point number stands for all reals that are nearer to it than to any other, and it is
written with the fewest digits that say which one is meant.  Among the multiples of a power of ten,
the coarsest power with a multiple in that range gives the fewest digits; of two such multiples the
nearer is taken, and of two equally near ones the even one.  All of it is done on natural numbers.

Digits are set out in positional notation for exponents from -5 to 15, otherwise with one digit
before the point and an exponent with its sign.
-/

namespace Fieldbus

/-- The positive reals that round to one number, and that number: `low`, `value` and `high` over a
common `unit`.  The ends belong to the range when `closed` is set. -/
structure RoundingRange where
  low : Nat
  value : Nat
  high : Nat
  unit : Nat
  closed : Bool

namespace RoundingRange

/-- The range of the number `mantissa * 2 ^ exponent`.  Below a power of two the neighbours are
half as far away as above it; `boundary` says that the number is such a power. -/
def ofBinary (mantissa : Nat) (exponent : Int) (boundary : Bool) : RoundingRange :=
  let scale := Nat.pow 2 (exponent - 2).toNat
  { low := (4 * mantissa - if boundary then 1 else 2) * scale
    value := 4 * mantissa * scale
    high := (4 * mantissa + 2) * scale
    unit := Nat.pow 2 (2 - exponent).toNat
    closed := mantissa % 2 = 0 }

/-- Whether the real `n / r.unit` lies in the range. -/
def contains (r : RoundingRange) (n : Nat) : Bool :=
  if r.closed then r.low ≤ n && n ≤ r.high else r.low < n && n < r.high

/-- The multiple of `10 ^ power` in the range that is nearest to the number, as the factor before
the power. -/
def onGrid? (r : RoundingRange) (power : Int) : Option Nat :=
  let up := Nat.pow 10 (-power).toNat
  let step := r.unit * Nat.pow 10 power.toNat
  let scaled : RoundingRange :=
    { r with low := r.low * up, value := r.value * up, high := r.high * up }
  let below := scaled.value / step
  let above := below + 1
  match scaled.contains (below * step), scaled.contains (above * step) with
  | true, true =>
    let down := scaled.value - below * step
    let upward := above * step - scaled.value
    if down < upward ∨ (down = upward ∧ below % 2 = 0) then some below else some above
  | true, false => some below
  | false, true => some above
  | false, false => none

/-- The powers of ten that can be needed, the greatest first. -/
def powers : List Int :=
  (List.range 633).map fun n : Nat => (308 : Int) - n

/-- The factor and the power of the shortest decimal in the range. -/
def shortest (r : RoundingRange) : Nat × Int :=
  (powers.findSome? fun power => (r.onGrid? power).map fun factor => (factor, power)).getD (0, 0)

end RoundingRange

/-- Digits with a point after the first `whole` of them; a whole number keeps one zero behind its
point. -/
private def positional (digits : List Char) (whole : Int) : List Char :=
  if whole ≤ 0 then '0' :: '.' :: List.replicate (-whole).toNat '0' ++ digits
  else
    let before := digits.take whole.toNat
    let after := digits.drop whole.toNat
    before ++ List.replicate (whole.toNat - digits.length) '0' ++
      '.' :: (if after = [] then ['0'] else after)

/-- Digits with an exponent that says how far the point is from behind the first of them. -/
private def scientific (digits : List Char) (exponent : Int) : List Char :=
  let fraction := match digits.drop 1 with
    | [] => []
    | rest => '.' :: rest
  digits.take 1 ++ fraction ++ ['e', if exponent < 0 then '-' else '+'] ++
    Nat.toDigits 10 exponent.natAbs

/-- The text of the positive number `factor * 10 ^ power`. -/
def decimalText (factor : Nat) (power : Int) : List Char :=
  let digits := Nat.toDigits 10 factor
  let exponent := power + digits.length - 1
  if -5 ≤ exponent ∧ exponent ≤ 15 then positional digits (exponent + 1)
  else scientific digits exponent

/-- The number of fractions that one exponent goes with. -/
def fractions : Nat := 0x10000000000000

/-- The text of the floating point number with these bits: a sign, eleven bits of exponent, and 52
bits of fraction. -/
def floatText (bits : UInt64) : String :=
  let biased : Nat := bits.toNat / fractions % 2048
  let fraction : Nat := bits.toNat % fractions
  let sign := if bits.toNat / fractions = biased then [] else ['-']
  let magnitude :=
    if biased = 2047 then (if fraction = 0 then ['i', 'n', 'f'] else ['N', 'a', 'N'])
    else if biased = 0 ∧ fraction = 0 then ['0', '.', '0']
    else
      let range :=
        if biased = 0 then RoundingRange.ofBinary fraction (-1074) false
        else
          RoundingRange.ofBinary (fractions + fraction) ((biased : Int) - 1075)
            (fraction = 0 ∧ 1 < biased)
      let (factor, power) := range.shortest
      decimalText factor power
  String.ofList (sign ++ magnitude)

end Fieldbus
