import Fieldbus.Text.Quoted

/-!
# Writing documents

A document is written on one line without blanks, or laid out with one item or member per line, each
level two blanks further in, and without a line break at its end.  Texts are written with the
shortest escapes that the format has; only quotes, backslashes and controls need one.
-/

namespace Fieldbus.Json

/-- A document that can be written. -/
inductive Document where
  | flag (value : Bool)
  | number (value : Nat)
  | text (value : String)
  | list (items : List Document)
  | object (members : List (String × Document))

/-- A character as it stands in a written text. -/
def escapedChar (c : Char) : List Char :=
  if c = '"' then ['\\', '"']
  else if c = '\\' then ['\\', '\\']
  else if c = '\x08' then ['\\', 'b']
  else if c = '\x0c' then ['\\', 'f']
  else if c = '\n' then ['\\', 'n']
  else if c = '\r' then ['\\', 'r']
  else if c = '\t' then ['\\', 't']
  else if c < ' ' then
    ['\\', 'u', '0', '0', hexDigit (c.toNat / 16), hexDigit (c.toNat % 16)]
  else [c]

/-- A text between double quotes. -/
def writtenText (text : String) : List Char :=
  '"' :: text.toList.flatMap escapedChar ++ ['"']

/-- A line break and the blanks in front of a line at this depth. -/
def lineBreak (depth : Nat) : List Char :=
  '\n' :: List.replicate (2 * depth) ' '

namespace Document

mutual

/-- The characters of a document that begins at this depth. -/
def write (depth : Nat) : Document → List Char
  | flag value => if value then ['t', 'r', 'u', 'e'] else ['f', 'a', 'l', 's', 'e']
  | number value => Nat.toDigits 10 value
  | text value => writtenText value
  | list items => '[' :: writeItems depth true items ++ [']']
  | object members => '\x7b' :: writeMembers depth true members ++ ['\x7d']

/-- The items of a list that begins at this depth, each on its own line. -/
def writeItems (depth : Nat) (first : Bool) : List Document → List Char
  | [] => if first then [] else lineBreak depth
  | item :: items =>
    (if first then [] else [',']) ++ lineBreak (depth + 1) ++ item.write (depth + 1) ++
      writeItems depth false items

/-- The members of an object that begins at this depth, each on its own line. -/
def writeMembers (depth : Nat) (first : Bool) : List (String × Document) → List Char
  | [] => if first then [] else lineBreak depth
  | (name, value) :: members =>
    (if first then [] else [',']) ++ lineBreak (depth + 1) ++ writtenText name ++ [':', ' '] ++
      value.write (depth + 1) ++ writeMembers depth false members

end

/-- The text of a document. -/
def render (document : Document) : String :=
  String.ofList (document.write 0)

mutual

/-- The characters of a document on one line. -/
def compact : Document → List Char
  | flag value => if value then ['t', 'r', 'u', 'e'] else ['f', 'a', 'l', 's', 'e']
  | number value => Nat.toDigits 10 value
  | text value => writtenText value
  | list items => '[' :: compactItems items ++ [']']
  | object members => '\x7b' :: compactMembers members ++ ['\x7d']

/-- The items of a list on one line. -/
def compactItems : List Document → List Char
  | [] => []
  | [item] => item.compact
  | item :: items => item.compact ++ ',' :: compactItems items

/-- The members of an object on one line. -/
def compactMembers : List (String × Document) → List Char
  | [] => []
  | [(name, value)] => writtenText name ++ ':' :: value.compact
  | (name, value) :: members =>
    writtenText name ++ ':' :: value.compact ++ ',' :: compactMembers members

end

/-- The text of a document on one line. -/
def renderCompact (document : Document) : String :=
  String.ofList document.compact

end Document

end Fieldbus.Json
