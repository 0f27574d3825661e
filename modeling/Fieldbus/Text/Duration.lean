/-!
# Durations as text

A span of time is written in the largest of the units second and millisecond that it reaches, with
as many decimals as it needs: `5s`, `1.234s`, `250ms`.  No time at all is `0ns`.
-/

namespace Fieldbus

/-- Three decimals of a second, without the zeros at their end. -/
private def thousandths (n : Nat) : String :=
  let digits := [n / 100 % 10, n / 10 % 10, n % 10]
  String.join ((digits.reverse.dropWhile (· = 0)).reverse.map toString)

/-- The text of a span of so many milliseconds. -/
def durationText (milliseconds : Nat) : String :=
  if milliseconds = 0 then "0ns"
  else if milliseconds < 1000 then s!"{milliseconds}ms"
  else if milliseconds % 1000 = 0 then s!"{milliseconds / 1000}s"
  else s!"{milliseconds / 1000}.{thousandths milliseconds}s"

end Fieldbus
