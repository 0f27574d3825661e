import Fieldbus.Json.Number
import Fieldbus.Json.Text
import Fieldbus.Proofs.Json.Reader

/-!
# The grammar of documents

A document is seen as a tree that keeps texts and numbers as they are written.  `Spelled` says which
characters spell a tree; `Decodes` says what a text stands for, which is nothing for one with a lone
surrogate, although that may be spelled.
-/

namespace Fieldbus.Json

/-! ## Texts -/

/-- What may follow a backslash, whether or not it stands for a character. -/
inductive EscapeForm : List Char → Prop
  | letter {c x : Char} (h : plainEscape? c = some x) : EscapeForm [c]
  | unit {a b c d : Char} {u : Nat} (h : codeUnit? a b c d = some u) :
      EscapeForm ['u', a, b, c, d]

/-- What may follow a backslash and stands for a character: a letter, a code unit that does not
belong to a pair, or a pair of them. -/
inductive Escape : List Char → Char → Prop
  | letter {c x : Char} (h : plainEscape? c = some x) : Escape [c] x
  | unit {a b c d : Char} {u : Nat} (h : codeUnit? a b c d = some u) (hleading : ¬ IsLeading u)
      (htrailing : ¬ IsTrailing u) : Escape ['u', a, b, c, d] (Char.ofNat u)
  | pair {a b c d a' b' c' d' : Char} {u u' : Nat} (h : codeUnit? a b c d = some u)
      (hleading : IsLeading u) (h' : codeUnit? a' b' c' d' = some u') (htrailing : IsTrailing u') :
      Escape ['u', a, b, c, d, '\\', 'u', a', b', c', d'] (pairedChar u u')

/-- A character that stands for itself in a text. -/
def IsPlain (c : Char) : Prop := c ≠ '"' ∧ c ≠ '\\' ∧ ¬ c < ' '

/-- What may stand between quotes. -/
inductive TextForm : List Char → Prop
  | nil : TextForm []
  | plain {c : Char} {raw : List Char} (hc : IsPlain c) (more : TextForm raw) : TextForm (c :: raw)
  | escape {esc raw : List Char} (hesc : EscapeForm esc) (more : TextForm raw) :
      TextForm ('\\' :: (esc ++ raw))

/-- What stands between quotes, and the characters that it stands for. -/
inductive Decodes : List Char → List Char → Prop
  | nil : Decodes [] []
  | plain {c : Char} {raw chars : List Char} (hc : IsPlain c) (more : Decodes raw chars) :
      Decodes (c :: raw) (c :: chars)
  | escape {esc raw chars : List Char} {x : Char} (hesc : Escape esc x)
      (more : Decodes raw chars) : Decodes ('\\' :: (esc ++ raw)) (x :: chars)

/-! ## Numbers -/

/-- Nothing but decimal digits, and at least one. -/
def Digits (s : List Char) : Prop := s ≠ [] ∧ ∀ c ∈ s, isDigit c = true

/-- The digits before the point: a zero stands alone. -/
inductive Whole : List Char → Prop
  | zero : Whole ['0']
  | digits {c : Char} {s : List Char} (hc : c ≠ '0') (h : Digits (c :: s)) : Whole (c :: s)

/-- The point and the digits behind it, or nothing. -/
inductive Fraction : List Char → Prop
  | none : Fraction []
  | some {digits : List Char} (h : Digits digits) : Fraction ('.' :: digits)

/-- The letter, the sign and the digits of an exponent, or nothing. -/
inductive Exponent : List Char → Prop
  | none : Exponent []
  | some {letter : Char} {sign digits : List Char} (hletter : letter = 'e' ∨ letter = 'E')
      (hsign : sign = [] ∨ sign = ['+'] ∨ sign = ['-']) (h : Digits digits) :
      Exponent (letter :: (sign ++ digits))

/-- A number as it is written. -/
structure Numeral where
  negative : Bool
  whole : List Char
  fraction : List Char
  exponent : List Char

namespace Numeral

/-- The parts of the number are written as they should be. -/
structure WellFormed (n : Numeral) : Prop where
  whole : Whole n.whole
  fraction : Fraction n.fraction
  exponent : Exponent n.exponent

/-- The number without its sign. -/
def magnitude (n : Numeral) : List Char :=
  n.whole ++ (n.fraction ++ n.exponent)

def text (n : Numeral) : List Char :=
  if n.negative then '-' :: n.magnitude else n.magnitude

/-- The number is written with digits only. -/
def Plain (n : Numeral) : Prop :=
  n.negative = false ∧ n.fraction = [] ∧ n.exponent = []

/-- The number that the digits before the point give. -/
def value (n : Numeral) : Nat :=
  n.whole.foldl (fun value digit => value * 10 + digitValue digit) 0

end Numeral

/-! ## Trees -/

/-- A document as it is written, apart from blanks. -/
inductive Tree where
  | null
  | flag (value : Bool)
  | number (numeral : Numeral)
  | text (raw : List Char)
  | list (items : List Tree)
  | object (members : List (List Char × Tree))

/-- What can be spelled: a value, a member, and what follows an item or a member up to the bracket
that closes the list or the object. -/
inductive Part where
  | value (tree : Tree)
  | member (key : List Char) (tree : Tree)
  | items (later : List Tree)
  | members (later : List (List Char × Tree))

/-- The characters spell the part. -/
inductive Spelled : Part → List Char → Prop
  | null : Spelled (.value .null) ['n', 'u', 'l', 'l']
  | isTrue : Spelled (.value (.flag true)) ['t', 'r', 'u', 'e']
  | isFalse : Spelled (.value (.flag false)) ['f', 'a', 'l', 's', 'e']
  | number {n : Numeral} (h : n.WellFormed) : Spelled (.value (.number n)) n.text
  | text {raw : List Char} (h : TextForm raw) : Spelled (.value (.text raw)) ('"' :: (raw ++ ['"']))
  | emptyList {b : List Char} (hb : Blanks b) : Spelled (.value (.list [])) ('[' :: (b ++ [']']))
  | list {b s more : List Char} {tree : Tree} {later : List Tree} (hb : Blanks b)
      (head : Spelled (.value tree) s) (tail : Spelled (.items later) more) :
      Spelled (.value (.list (tree :: later))) ('[' :: (b ++ (s ++ more)))
  | emptyObject {b : List Char} (hb : Blanks b) :
      Spelled (.value (.object [])) ('{' :: (b ++ ['}']))
  | object {b s more key : List Char} {tree : Tree} {later : List (List Char × Tree)}
      (hb : Blanks b) (head : Spelled (.member key tree) s) (tail : Spelled (.members later) more) :
      Spelled (.value (.object ((key, tree) :: later))) ('{' :: (b ++ (s ++ more)))
  | member {b b' s raw : List Char} {tree : Tree} (h : TextForm raw) (hb : Blanks b)
      (hb' : Blanks b') (value : Spelled (.value tree) s) :
      Spelled (.member raw tree) ('"' :: (raw ++ '"' :: (b ++ ':' :: (b' ++ s))))
  | noItems {b : List Char} (hb : Blanks b) : Spelled (.items []) (b ++ [']'])
  | items {b b' s more : List Char} {tree : Tree} {later : List Tree} (hb : Blanks b)
      (hb' : Blanks b') (head : Spelled (.value tree) s) (tail : Spelled (.items later) more) :
      Spelled (.items (tree :: later)) (b ++ ',' :: (b' ++ (s ++ more)))
  | noMembers {b : List Char} (hb : Blanks b) : Spelled (.members []) (b ++ ['}'])
  | members {b b' s more key : List Char} {tree : Tree} {later : List (List Char × Tree)}
      (hb : Blanks b) (hb' : Blanks b') (head : Spelled (.member key tree) s)
      (tail : Spelled (.members later) more) :
      Spelled (.members ((key, tree) :: later)) (b ++ ',' :: (b' ++ (s ++ more)))

/-- A number in front of this text ends here. -/
def Ends (s : List Char) : Prop :=
  ∀ c rest, s = c :: rest → isDigit c = false ∧ c ≠ '.' ∧ c ≠ 'e' ∧ c ≠ 'E'

theorem ends_nil : Ends [] :=
  fun _ _ h => nomatch h

theorem ends_blank {b s : List Char} (hb : Blanks b) (hs : Ends s) : Ends (b ++ s) := by
  cases b with
  | nil => exact hs
  | cons c b =>
    rintro _ _ ⟨⟩
    have hc : isBlank c = true := hb c List.mem_cons_self
    simp only [isBlank, Bool.or_eq_true, decide_eq_true_eq] at hc
    rcases hc with ((rfl | rfl) | rfl) | rfl <;> decide

/-- A number ends in front of a character that no number has. -/
theorem ends_separator {b s : List Char} {c : Char} (hb : Blanks b)
    (hc : isDigit c = false ∧ c ≠ '.' ∧ c ≠ 'e' ∧ c ≠ 'E') : Ends (b ++ c :: s) := by
  refine ends_blank hb ?_
  rintro _ _ ⟨⟩
  exact hc

end Fieldbus.Json
