import Fieldbus.Text.Quoted
import Fieldbus.Text.Shortest

/-!
# Failures of reading a document

A document that cannot be read fails at one place for one cause: it ends too early, its form is
broken, or a value is not what the reader expects there.  The place is kept as the number of bytes
that were not read, from which `Failure.position` finds the line and the column.
-/

namespace Fieldbus.Json

/-- What a reader found in place of what it expected.  A floating point number is given by its
bits. -/
inductive Found where
  | null
  | boolean (value : Bool)
  | integer (value : Int)
  | float (bits : UInt64)
  | text (value : String)
  | list
  | object
  deriving DecidableEq, Repr

/-- Why a document cannot be read. -/
inductive Cause where
  -- the text ends
  | endOfValue
  | endOfObject
  | endOfList
  | endOfString
  -- the form is broken
  | expectedValue
  | expectedIdent
  | expectedColon
  | expectedCommaOrBrace
  | expectedCommaOrBracket
  | keyNotString
  | trailingComma
  | trailingCharacters
  | invalidNumber
  | numberOutOfRange
  | invalidEscape
  | loneSurrogate
  | unpairedSurrogate
  | controlCharacter
  -- the value is wrong
  | invalidType (found : Found) (expected : String)
  | invalidValue (found : Int) (expected : String)
  | invalidLength (length : Nat) (expected : String)
  | missingField (name : String)
  | duplicateField (name : String)
  deriving DecidableEq, Repr

/-- A failure: its cause, and how many bytes of the text had not been read. -/
structure Failure where
  cause : Cause
  unread : Nat
  deriving DecidableEq, Repr

/-- The three sorts of causes. -/
inductive Category where
  | eof
  | form
  | data
  deriving DecidableEq, Repr

/-- The wording of what was found. -/
def Found.message : Found → String
  | .null => "null"
  | .boolean value => s!"boolean \x60{value}\x60"
  | .integer value => s!"integer \x60{value}\x60"
  | .float bits => s!"floating point \x60{floatText bits}\x60"
  | .text value => s!"string {quoted value}"
  | .list => "sequence"
  | .object => "map"

namespace Cause

/-- The wording of the cause. -/
def message : Cause → String
  | endOfValue => "EOF while parsing a value"
  | endOfObject => "EOF while parsing an object"
  | endOfList => "EOF while parsing a list"
  | endOfString => "EOF while parsing a string"
  | expectedValue => "expected value"
  | expectedIdent => "expected ident"
  | expectedColon => "expected \x60:\x60"
  | expectedCommaOrBrace => "expected \x60,\x60 or \x60\x7d\x60"
  | expectedCommaOrBracket => "expected \x60,\x60 or \x60]\x60"
  | keyNotString => "key must be a string"
  | trailingComma => "trailing comma"
  | trailingCharacters => "trailing characters"
  | invalidNumber => "invalid number"
  | numberOutOfRange => "number out of range"
  | invalidEscape => "invalid escape"
  | loneSurrogate => "lone leading surrogate in hex escape"
  | unpairedSurrogate => "unexpected end of hex escape"
  | controlCharacter => "control character (\\u0000-\\u001F) found while parsing a string"
  | invalidType found expected => s!"invalid type: {found.message}, expected {expected}"
  | invalidValue found expected => s!"invalid value: integer \x60{found}\x60, expected {expected}"
  | invalidLength length expected => s!"invalid length {length}, expected {expected}"
  | missingField name => s!"missing field \x60{name}\x60"
  | duplicateField name => s!"duplicate field \x60{name}\x60"

/-- The sort of the cause. -/
def category : Cause → Category
  | endOfValue | endOfObject | endOfList | endOfString => .eof
  | invalidType .. | invalidValue .. | invalidLength .. | missingField _ | duplicateField _ => .data
  | _ => .form

end Cause

/-- The number of bytes that characters take in UTF-8. -/
def byteCount (s : List Char) : Nat :=
  s.foldr (fun c count => c.utf8Size + count) 0

namespace Failure

/-- A failure between the characters that were read and the rest `s`. -/
def before (cause : Cause) (s : List Char) : Failure :=
  ⟨cause, byteCount s⟩

/-- A failure on the first byte of the rest `s`, or at the end if nothing is left. -/
def on (cause : Cause) (s : List Char) : Failure :=
  ⟨cause, byteCount s - 1⟩

/-- The line, counted from one, and the number of bytes read of that line. -/
def position (f : Failure) (text : String) : Nat × Nat :=
  let bytes := text.toUTF8.toList
  let read := bytes.take (bytes.length - f.unread)
  (read.count 10 + 1, (read.reverse.takeWhile (· ≠ 10)).length)

/-- The cause and its place in the text. -/
def located (f : Failure) (text : String) : String :=
  let (line, column) := f.position text
  s!"{f.cause.message} at line {line} column {column}"

end Failure

end Fieldbus.Json
