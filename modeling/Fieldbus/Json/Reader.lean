import Fieldbus.Json.Failure

/-!
# Readers

A reader takes characters off the front of a text.  What it took comes with the rest and a proof
that the rest is shorter, so that readers may be repeated until the text is used up.
-/

namespace Fieldbus.Json

/-- A value that was read off the front of a text, and a rest of fewer than `bound` characters. -/
structure Taken (bound : Nat) (α : Type) where
  value : α
  rest : List Char
  shorter : rest.length < bound

theorem lt_succ_length (s : List Char) : s.length < s.length + 1 :=
  Nat.lt_succ_self _

theorem succ_length_le_succ (s : List Char) : s.length + 1 ≤ s.length + 1 + 1 :=
  Nat.le_succ _

theorem lt_succ_length_of_lt {r s : List Char} (h : r.length < s.length) :
    r.length < s.length + 1 :=
  Nat.lt_succ_of_lt h

theorem length_le_of_lt {r s : List Char} (h : r.length < s.length) : r.length ≤ s.length :=
  Nat.le_of_lt h

theorem length_le_of_lt_of_lt {q r s : List Char} (hq : q.length < r.length)
    (hr : r.length < s.length) : q.length ≤ s.length :=
  Nat.le_of_lt (Nat.lt_trans hq hr)

theorem succ_length_le_of_lt {r s : List Char} (h : r.length < s.length) :
    r.length + 1 ≤ s.length :=
  h

/-- Reads a value off the front of a text. -/
abbrev Reader (α : Type) := (s : List Char) → Except Failure (Taken s.length α)

/-- The same value, with a rest that is known less well. -/
def Taken.widen {m n : Nat} {α : Type} (taken : Taken m α) (h : m ≤ n) : Taken n α :=
  ⟨taken.value, taken.rest, Nat.lt_of_lt_of_le taken.shorter h⟩

/-- Another value in the same place. -/
def Taken.map {n : Nat} {α β : Type} (f : α → β) (taken : Taken n α) : Taken n β :=
  ⟨f taken.value, taken.rest, taken.shorter⟩

/-- The characters that may stand between the parts of a document. -/
def isBlank (c : Char) : Bool :=
  c = ' ' || c = '\n' || c = '\t' || c = '\r'

/-- The text from its first character that is not blank. -/
def skipBlanks (s : List Char) : List Char :=
  s.dropWhile isBlank

theorem length_skipBlanks_le (s : List Char) : (skipBlanks s).length ≤ s.length :=
  (List.dropWhile_sublist isBlank).length_le

/-- What a text begins with when blanks are not looked at: nothing, or a character before the
rest. -/
inductive Front (s : List Char) where
  | blank
  | char (c : Char) (rest : List Char) (shorter : rest.length < s.length)

/-- Looks at the front of a text. -/
def front (s : List Char) : Front s :=
  match h : skipBlanks s with
  | [] => .blank
  | c :: rest => .char c rest (by
      have := length_skipBlanks_le s
      rw [h] at this
      exact this)

/-- Takes the rest of a word whose first letter was read. -/
def readWord : (word : List Char) → (s : List Char) → Except Failure (Taken (s.length + 1) Unit)
  | [], s => .ok ⟨(), s, lt_succ_length s⟩
  | _ :: _, [] => .error (.before .endOfValue [])
  | w :: word, c :: s =>
    if c = w then do return (← readWord word s).widen (succ_length_le_succ s)
    else .error (.on .expectedIdent (c :: s))

end Fieldbus.Json
