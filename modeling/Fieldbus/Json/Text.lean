import Fieldbus.Json.Reader

/-!
# Texts in a document

A text stands between double quotes.  A backslash begins an escape: one letter, or four hexadecimal
digits that give a UTF-16 code unit.  A code unit that leads a pair must be followed by the escape
of one that trails it.  `readText` decodes a text; `skipText` only finds its end, and does not care
how code units pair.
-/

namespace Fieldbus.Json

/-- The character that a one-letter escape stands for. -/
def plainEscape? : Char → Option Char
  | '"' => some '"'
  | '\\' => some '\\'
  | '/' => some '/'
  | 'b' => some '\x08'
  | 'f' => some '\x0c'
  | 'n' => some '\n'
  | 'r' => some '\r'
  | 't' => some '\t'
  | _ => none

/-- The value of a hexadecimal digit, in either case. -/
def hexValue? (c : Char) : Option Nat :=
  if '0' ≤ c ∧ c ≤ '9' then some (c.toNat - '0'.toNat)
  else if 'a' ≤ c ∧ c ≤ 'f' then some (c.toNat - 'a'.toNat + 10)
  else if 'A' ≤ c ∧ c ≤ 'F' then some (c.toNat - 'A'.toNat + 10)
  else none

/-- The value of four hexadecimal digits. -/
def codeUnit? (a b c d : Char) : Option Nat := do
  return (((← hexValue? a) * 16 + (← hexValue? b)) * 16 + (← hexValue? c)) * 16 + (← hexValue? d)

/-- Reads a code unit.  Four bytes are looked at together, so that a text with fewer of them ends
too early whatever they are. -/
def readCodeUnit : Reader Nat
  | a :: b :: c :: d :: rest =>
    match codeUnit? a b c d with
    | some unit => .ok ⟨unit, rest, by simp only [List.length_cons]; omega⟩
    | none => .error ⟨.invalidEscape, byteCount (a :: b :: c :: d :: rest) - 4⟩
  | s =>
    if 4 ≤ byteCount s then .error ⟨.invalidEscape, byteCount s - 4⟩
    else .error (.before .endOfString [])

/-- The code units that lead a pair. -/
def IsLeading (unit : Nat) : Prop := 0xD800 ≤ unit ∧ unit ≤ 0xDBFF

/-- The code units that trail a pair. -/
def IsTrailing (unit : Nat) : Prop := 0xDC00 ≤ unit ∧ unit ≤ 0xDFFF

instance (unit : Nat) : Decidable (IsLeading unit) := inferInstanceAs (Decidable (_ ∧ _))

instance (unit : Nat) : Decidable (IsTrailing unit) := inferInstanceAs (Decidable (_ ∧ _))

/-- The character that a pair of code units stands for. -/
def pairedChar (leading trailing : Nat) : Char :=
  Char.ofNat ((leading - 0xD800) * 0x400 + (trailing - 0xDC00) + 0x10000)

/-- Reads the escape of a code unit that trails `leading`. -/
def readTrailing (leading : Nat) : Reader Char
  | [] | ['\\'] => .error (.before .endOfString [])
  | '\\' :: 'u' :: s => do
    let unit ← readCodeUnit s
    if IsTrailing unit.value then
      have := unit.shorter
      return ⟨pairedChar leading unit.value, unit.rest, by simp only [List.length_cons]; omega⟩
    else .error (.before .loneSurrogate unit.rest)
  | '\\' :: s => .error (.on .unpairedSurrogate s)
  | s => .error (.on .unpairedSurrogate s)

/-- Reads what follows a backslash. -/
def readEscape : Reader Char
  | [] => .error (.before .endOfString [])
  | 'u' :: s => do
    let unit ← readCodeUnit s
    if IsTrailing unit.value then .error (.before .loneSurrogate unit.rest)
    else
      have := unit.shorter
      if IsLeading unit.value then
        return (← readTrailing unit.value unit.rest).widen
          (by simp only [List.length_cons]; omega)
      else return ⟨Char.ofNat unit.value, unit.rest, by simp only [List.length_cons]; omega⟩
  | c :: s =>
    match plainEscape? c with
    | some x => .ok ⟨x, s, by simp⟩
    | none => .error (.on .invalidEscape (c :: s))

/-- Reads characters up to the closing quote, and the quote. -/
def readText (s : List Char) : Except Failure (Taken s.length (List Char)) :=
  match s with
  | [] => .error (.before .endOfString [])
  | '"' :: s => .ok ⟨[], s, by simp⟩
  | '\\' :: s => do
    let escape ← readEscape s
    have := escape.shorter
    let more ← readText escape.rest
    have := more.shorter
    return ⟨escape.value :: more.value, more.rest, by simp only [List.length_cons]; omega⟩
  | c :: s =>
    if c < ' ' then .error (.on .controlCharacter (c :: s))
    else do
      let more ← readText s
      have := more.shorter
      return ⟨c :: more.value, more.rest, by simp only [List.length_cons]; omega⟩
termination_by s.length
decreasing_by all_goals simp only [List.length_cons]; omega

/-- Passes over what follows a backslash. -/
def skipEscape : Reader Unit
  | [] => .error (.before .endOfString [])
  | 'u' :: s => do
    let unit ← readCodeUnit s
    have := unit.shorter
    return ⟨(), unit.rest, by simp only [List.length_cons]; omega⟩
  | c :: s =>
    if (plainEscape? c).isSome then .ok ⟨(), s, by simp⟩
    else .error (.on .invalidEscape (c :: s))

/-- Passes over characters up to the closing quote, and the quote. -/
def skipText (s : List Char) : Except Failure (Taken s.length Unit) :=
  match s with
  | [] => .error (.before .endOfString [])
  | '"' :: s => .ok ⟨(), s, by simp⟩
  | '\\' :: s => do
    let escape ← skipEscape s
    have := escape.shorter
    return (← skipText escape.rest).widen (by simp only [List.length_cons]; omega)
  | c :: s =>
    if c < ' ' then .error (.before .controlCharacter (c :: s))
    else do return (← skipText s).widen (by simp)
termination_by s.length
decreasing_by all_goals simp only [List.length_cons]; omega

end Fieldbus.Json
