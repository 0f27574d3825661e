/-!
# Similar words

Two words are similar when they have many characters in common at nearly the same places.  The
similarity is the mean of three shares: of the first word that is common, of the second, and of the
common characters that stand in the same order.
-/

namespace Fieldbus

/-- A word under comparison: each character, and whether it has been found to be common. -/
abbrev Marked := List (Char × Bool)

/-- Marks the first character `c` between two places that has not been marked; `place` is the place
of the first character of the list. -/
def mark (c : Char) (lowest highest place : Nat) : Marked → Option Marked
  | [] => none
  | (d, marked) :: rest =>
    if highest < place then none
    else if lowest ≤ place ∧ d = c ∧ ¬ marked then some ((d, true) :: rest)
    else (mark c lowest highest (place + 1) rest).map ((d, marked) :: ·)

/-- Marks in the second word what it has in common with the characters of the first from `place` on,
at most `reach` places away.  Answers the common characters in the order of the first word. -/
def markAll (reach place : Nat) : List Char → Marked → List Char × Marked
  | [], word => ([], word)
  | c :: cs, word =>
    match mark c (place - reach) (place + reach) 0 word with
    | none => markAll reach (place + 1) cs word
    | some word =>
      let (common, word) := markAll reach (place + 1) cs word
      (c :: common, word)

/-- A share as a numerator and a denominator. -/
structure Share where
  part : Nat
  whole : Nat
  deriving DecidableEq, Repr

/-- One share is greater than another. -/
def Share.Exceeds (a b : Share) : Prop := b.part * a.whole < a.part * b.whole

instance (a b : Share) : Decidable (a.Exceeds b) := inferInstanceAs (Decidable (_ < _))

/-- The similarity of two words, one if they are equal. -/
def similarity (a b : List Char) : Share :=
  let reach := max a.length b.length / 2 - 1
  let (common, word) := markAll reach 0 a (b.map fun c => (c, false))
  let other := (word.filter (·.2)).map (·.1)
  let count := common.length
  let moved := ((common.zip other).filter fun p => p.1 ≠ p.2).length / 2
  if a = b then ⟨1, 1⟩
  else if count = 0 then ⟨0, 1⟩
  else
    ⟨count * count * b.length + count * count * a.length +
        (count - moved) * (a.length * b.length),
      3 * (count * (a.length * b.length))⟩

/-- The word most similar to `word`, if one is similar at all: by more than seven tenths. -/
def mostSimilar? (word : String) (candidates : List String) : Option String :=
  let better (best : Option String) (candidate : String) : Option String :=
    let share := similarity word.toList candidate.toList
    let bar := match best with
      | some b => similarity word.toList b.toList
      | none => ⟨7, 10⟩
    if share.Exceeds bar then some candidate else best
  candidates.foldl better none

end Fieldbus
