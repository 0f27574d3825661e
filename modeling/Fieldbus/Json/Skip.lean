import Fieldbus.Json.Number
import Fieldbus.Json.Text

/-!
# Passing over a value

A value that nobody asked for is passed over with a look at its form only.  Lists and objects that
are open stand on a stack, so that they may be nested as deep as the text is long.
-/

namespace Fieldbus.Json

/-- A list or an object that is still open. -/
inductive Frame where
  | list
  | object
  deriving DecidableEq, Repr

namespace Frame

/-- The cause when the text ends inside. -/
def endCause : Frame → Cause
  | list => .endOfList
  | object => .endOfObject

/-- The cause when neither a comma nor the closing bracket follows an item. -/
def commaCause : Frame → Cause
  | list => .expectedCommaOrBracket
  | object => .expectedCommaOrBrace

/-- The closing bracket. -/
def closer : Frame → Char
  | list => ']'
  | object => '}'

end Frame

/-- Passes over the colon behind a key. -/
def readColon : Reader Unit := fun s =>
  match front s with
  | .blank => .error (.before .endOfObject [])
  | .char ':' rest h => .ok ⟨(), rest, h⟩
  | .char c rest _ => .error (.on .expectedColon (c :: rest))

/-- Passes over the key of a member and the colon behind it. -/
def skipKey : Reader Unit := fun s =>
  match front s with
  | .blank => .error (.before .endOfObject [])
  | .char '"' rest h => do
    let ⟨_, behind, shorter⟩ ← skipText rest
    return (← readColon behind).widen (length_le_of_lt_of_lt shorter h)
  | .char c rest _ => .error (.on .keyNotString (c :: rest))

/-- Passes over a value that is neither a list nor an object and begins with `c`. -/
def skipScalar (c : Char) (s : List Char) : Except Failure (Taken (s.length + 1) Unit) :=
  match c with
  | 'n' => readWord ['u', 'l', 'l'] s
  | 't' => readWord ['r', 'u', 'e'] s
  | 'f' => readWord ['a', 'l', 's', 'e'] s
  | '-' => do return (← skipNumber s).widen (Nat.le_succ _)
  | '"' => do return (← skipText s).widen (Nat.le_succ _)
  | c => if isDigit c then skipNumber (c :: s) else .error (.on .expectedValue (c :: s))

mutual

/-- Passes over a value inside the open frames, and over all that closes them. -/
def skipOpen {bound : Nat} (frames : List Frame) (s : List Char) (fits : s.length ≤ bound) :
    Except Failure (Taken bound Unit) :=
  match front s with
  | .blank => .error (.before .endOfValue [])
  | .char '[' r _ =>
    match front r with
    | .blank => .error (.before .endOfList [])
    | .char ']' rest _ => skipClose frames rest (by omega)
    | .char .. => skipOpen (.list :: frames) r (by omega)
  | .char '{' r _ =>
    match front r with
    | .blank => .error (.before .endOfObject [])
    | .char '}' rest _ => skipClose frames rest (by omega)
    | .char .. =>
      match skipKey r with
      | .error e => .error e
      | .ok ⟨_, rest, _⟩ => skipOpen (.object :: frames) rest (by omega)
  | .char c r _ =>
    match skipScalar c r with
    | .error e => .error e
    | .ok ⟨_, rest, _⟩ => skipClose frames rest (by omega)
termination_by s.length
decreasing_by all_goals omega

/-- Goes on behind a value inside the open frames. -/
def skipClose {bound : Nat} (frames : List Frame) (s : List Char) (fits : s.length < bound) :
    Except Failure (Taken bound Unit) :=
  match frames with
  | [] => .ok ⟨(), s, fits⟩
  | frame :: outer =>
    match front s with
    | .blank => .error (.before frame.endCause [])
    | .char c r _ =>
      if c = ',' then
        match frame with
        | .list => skipOpen frames r (by omega)
        | .object =>
          match skipKey r with
          | .error e => .error e
          | .ok ⟨_, rest, _⟩ => skipOpen frames rest (by omega)
      else if c = frame.closer then skipClose outer r (by omega)
      else .error (.on frame.commaCause (c :: r))
termination_by s.length
decreasing_by all_goals omega

end

/-- Passes over a value. -/
def skipValue : Reader Unit :=
  fun s => skipOpen [] s (Nat.le_refl _)

end Fieldbus.Json
