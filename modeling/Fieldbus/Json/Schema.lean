import Fieldbus.Json.Skip

/-!
# Reading by a schema

A schema says which fields an object has, how the value of each is read, and what the object is
before any of them is read.  The fields may stand in an object under their names, in any order and
each at most once, or in a list in the order of the schema.  Members that the schema does not name
are passed over.  A field that is absent keeps what it was before, unless the schema requires all.
-/

namespace Fieldbus.Json

/-! ## Simple values -/

/-- The failure when a value that begins with `c` is not what is expected.  The value is read, if
it is neither a list nor an object, so that the failure can name it. -/
def mismatch (expected : String) (c : Char) (s : List Char) : Failure :=
  let wrong (found : Found) (rest : List Char) : Failure :=
    .before (.invalidType found expected) rest
  let ofWord (word : List Char) (found : Found) : Failure :=
    match readWord word s with
    | .ok taken => wrong found taken.rest
    | .error failure => failure
  let ofNumber (negative : Bool) (s : List Char) : Failure :=
    match readNumber negative s with
    | .ok taken => wrong taken.value.found taken.rest
    | .error failure => failure
  match c with
  | 'n' => ofWord ['u', 'l', 'l'] .null
  | 't' => ofWord ['r', 'u', 'e'] (.boolean true)
  | 'f' => ofWord ['a', 'l', 's', 'e'] (.boolean false)
  | '-' => ofNumber true s
  | '"' =>
    match readText s with
    | .ok taken => wrong (.text (String.ofList taken.value)) taken.rest
    | .error failure => failure
  | '[' => wrong .list (c :: s)
  | '{' => wrong .object (c :: s)
  | c => if isDigit c then ofNumber false (c :: s) else .on .expectedValue (c :: s)

/-- Reads a truth value. -/
def readBool : Reader Bool := fun s =>
  match front s with
  | .blank => .error (.before .endOfValue [])
  | .char 't' r h => do
    return ((← readWord ['r', 'u', 'e'] r).map fun _ => true).widen (succ_length_le_of_lt h)
  | .char 'f' r h => do
    return ((← readWord ['a', 'l', 's', 'e'] r).map fun _ => false).widen (succ_length_le_of_lt h)
  | .char c r _ => .error (mismatch "a boolean" c r)

/-- Reads a text. -/
def readString : Reader String := fun s =>
  match front s with
  | .blank => .error (.before .endOfValue [])
  | .char '"' r h => do
    return ((← readText r).map String.ofList).widen (length_le_of_lt h)
  | .char c r _ => .error (mismatch "a string" c r)

/-- The integer that was read, if it is one and lies between zero and `bound`. -/
def fit (expected : String) (bound : Nat) {n : Nat} (taken : Taken n Number) :
    Except Failure (Taken n Nat) :=
  match taken.value with
  | .natural value =>
    if value.toNat ≤ bound then .ok (taken.map fun _ => value.toNat)
    else .error (.before (.invalidValue value.toNat expected) taken.rest)
  | .negative magnitude =>
    .error (.before (.invalidValue (-magnitude.toNat) expected) taken.rest)
  | .float bits => .error (.before (.invalidType (.float bits) expected) taken.rest)

/-- Reads an integer between zero and `bound`; `expected` names that range. -/
def readUnsigned (expected : String) (bound : Nat) : Reader Nat := fun s =>
  match front s with
  | .blank => .error (.before .endOfValue [])
  | .char '-' r h => do fit expected bound ((← readNumber true r).widen (length_le_of_lt h))
  | .char c r h =>
    if isDigit c then do
      fit expected bound ((← readNumber false (c :: r)).widen (succ_length_le_of_lt h))
    else .error (mismatch expected c r)

/-! ## Lists -/

/-- What stands where a list goes on: its closing bracket, or an item. -/
inductive Further (s : List Char) where
  | close (rest : List Char) (shorter : rest.length < s.length)
  | item (rest : List Char) (notLonger : rest.length ≤ s.length)

/-- Looks for the next item of a list; a comma stands before each but the first. -/
def further (first : Bool) (s : List Char) : Except Failure (Further s) :=
  match front s with
  | .blank => .error (.before .endOfList [])
  | .char ']' r h => .ok (.close r h)
  | .char c r h =>
    if first then .ok (.item (c :: r) h)
    else if c = ',' then
      match front r with
      | .blank => .error (.before .endOfValue [])
      | .char ']' rest _ => .error (.on .trailingComma (']' :: rest))
      | .char .. => .ok (.item r (length_le_of_lt h))
    else .error (.on .expectedCommaOrBracket (c :: r))

/-- Reads items up to the closing bracket of their list, and the bracket. -/
def readItems {α : Type} (item : Reader α) (first : Bool) (s : List Char) :
    Except Failure (Taken s.length (List α)) :=
  match further first s with
  | .error e => .error e
  | .ok (.close rest h) => .ok ⟨[], rest, h⟩
  | .ok (.item r _) => do
    let head ← item r
    have := head.shorter
    let tail ← readItems item false head.rest
    return (tail.map (head.value :: ·)).widen (by omega)
termination_by s.length
decreasing_by omega

/-- Reads a list. -/
def readList {α : Type} (item : Reader α) : Reader (List α) := fun s =>
  match front s with
  | .blank => .error (.before .endOfValue [])
  | .char '[' r h => do return (← readItems item true r).widen (length_le_of_lt h)
  | .char c r _ => .error (mismatch "a sequence" c r)

/-! ## Objects -/

/-- A field of an object: its name, and a reader of what its value changes. -/
structure Field (σ : Type) where
  name : String
  read : Reader (σ → σ)

/-- The fields of an object, what it is before any is read, and whether all must be present.  The
title names the object in failures. -/
structure Schema (σ : Type) where
  title : String
  fields : List (Field σ)
  base : σ
  complete : Bool := false

namespace Schema

variable {σ : Type}

/-- The first field that is required and was not seen. -/
def missing? (schema : Schema σ) (seen : List String) : Option String :=
  if schema.complete then
    (schema.fields.find? fun field => ¬ seen.contains field.name).map (·.name)
  else none

/-- The text where a failure inside an object is placed: the bracket that closes the object is
passed if it comes next. -/
def behindObject (s : List Char) : List Char :=
  match skipBlanks s with
  | '}' :: rest => rest
  | rest => rest

/-- Passes over what stands before the next key of an object: a comma before each but the first,
and the opening quote. -/
def startOfKey (first : Bool) (c : Char) (s : List Char) :
    Except Failure (Taken (s.length + 1) Unit) :=
  if first then
    if c = '"' then .ok ⟨(), s, lt_succ_length s⟩ else .error (.on .keyNotString (c :: s))
  else if c = ',' then
    match front s with
    | .blank => .error (.before .endOfValue [])
    | .char '"' rest h => .ok ⟨(), rest, lt_succ_length_of_lt h⟩
    | .char '}' rest _ => .error (.on .trailingComma ('}' :: rest))
    | .char c rest _ => .error (.on .keyNotString (c :: rest))
  else .error (.on .expectedCommaOrBrace (c :: s))

theorem length_lt_of_member {s start key colon rest : List Char}
    (hstart : start.length < s.length + 1) (hkey : key.length < start.length)
    (hcolon : colon.length < key.length) (hrest : rest.length < colon.length) :
    rest.length < s.length := by
  omega

/-- Reads a member from the character in front of its key on, which is a comma or the quote of the
key.  Answers the names of the fields that it sets, which is one or none, and what it changes. -/
def readMember (schema : Schema σ) (first : Bool) (seen : List String) (c : Char)
    (s : List Char) : Except Failure (Taken s.length (List String × (σ → σ))) := do
  let ⟨_, start, hstart⟩ ← startOfKey first c s
  let ⟨name, key, hkey⟩ ← readText start
  match schema.fields.find? (·.name = String.ofList name) with
  | some field =>
    if seen.contains field.name then
      .error (.before (.duplicateField field.name) (behindObject key))
    else
      let ⟨_, colon, hcolon⟩ ← readColon key
      let ⟨change, rest, hrest⟩ ← field.read colon
      return ⟨([field.name], change), rest, length_lt_of_member hstart hkey hcolon hrest⟩
  | none =>
    let ⟨_, colon, hcolon⟩ ← readColon key
    let ⟨_, rest, hrest⟩ ← skipValue colon
    return ⟨([], id), rest, length_lt_of_member hstart hkey hcolon hrest⟩

/-- Reads members up to the closing bracket of their object, and the bracket. -/
def readMembers (schema : Schema σ) (first : Bool) (seen : List String) (value : σ)
    (s : List Char) : Except Failure (Taken s.length σ) :=
  match front s with
  | .blank => .error (.before .endOfObject [])
  | .char c r h =>
    if c = '}' then
      match schema.missing? seen with
      | some name => .error (.before (.missingField name) r)
      | none => .ok ⟨value, r, h⟩
    else do
      let ⟨(names, change), rest, shorter⟩ ← schema.readMember first seen c r
      return (← schema.readMembers false (names ++ seen) (change value) rest).widen
        (length_le_of_lt_of_lt shorter h)
termination_by s.length
decreasing_by exact Nat.lt_trans shorter h

/-- Passes over the bracket that closes a list whose items were all read. -/
def readEndOfList (s : List Char) : Except Failure (Taken s.length Unit) :=
  match front s with
  | .blank => .error (.before .endOfList [])
  | .char ']' rest h => .ok ⟨(), rest, h⟩
  | .char ',' r _ =>
    match skipBlanks r with
    | ']' :: rest => .error (.on .trailingComma (']' :: rest))
    | rest => .error (.on .trailingCharacters rest)
  | .char c r _ => .error (.on .trailingCharacters (c :: r))

/-- The schema as it is named when a list is too short. -/
def lengthTitle (schema : Schema σ) : String :=
  s!"{schema.title} with {schema.fields.length} elements"

/-- Reads the fields from the `index`-th on out of a list, in order, and the closing bracket. -/
def readPositions (schema : Schema σ) (index : Nat) (value : σ) :
    (fields : List (Field σ)) → Reader σ
  | [], s => do return (← readEndOfList s).map fun _ => value
  | field :: fields, s =>
    match further (index = 0) s with
    | .error e => .error e
    | .ok (.close rest h) =>
      if schema.complete then .error (.before (.invalidLength index schema.lengthTitle) rest)
      else .ok ⟨value, rest, h⟩
    | .ok (.item r _) => do
      let change ← field.read r
      have := change.shorter
      return (← schema.readPositions (index + 1) (change.value value) fields change.rest).widen
        (by omega)

/-- Reads an object. -/
def read (schema : Schema σ) : Reader σ := fun s =>
  match front s with
  | .blank => .error (.before .endOfValue [])
  | .char '[' r h => do
    return (← schema.readPositions 0 schema.base schema.fields r).widen (length_le_of_lt h)
  | .char '{' r h => do
    return (← schema.readMembers true [] schema.base r).widen (length_le_of_lt h)
  | .char c r _ => .error (mismatch schema.title c r)

/-- Reads a document that holds one object and nothing else. -/
def readDocument (schema : Schema σ) (text : String) : Except Failure σ := do
  let taken ← schema.read text.toList
  match skipBlanks taken.rest with
  | [] => return taken.value
  | rest => .error (.on .trailingCharacters rest)

end Schema

/-! ## Fields -/

namespace Field

variable {σ : Type}

/-- A field with a text. -/
def string (name : String) (set : String → σ → σ) : Field σ :=
  ⟨name, fun s => return (← readString s).map set⟩

/-- A field with a truth value. -/
def bool (name : String) (set : Bool → σ → σ) : Field σ :=
  ⟨name, fun s => return (← readBool s).map set⟩

/-- A field with an integer of 8 bits. -/
def uint8 (name : String) (set : UInt8 → σ → σ) : Field σ :=
  ⟨name, fun s => return (← readUnsigned "u8" (UInt8.size - 1) s).map fun n => set n.toUInt8⟩

/-- A field with an integer of 16 bits. -/
def uint16 (name : String) (set : UInt16 → σ → σ) : Field σ :=
  ⟨name, fun s => return (← readUnsigned "u16" (UInt16.size - 1) s).map fun n => set n.toUInt16⟩

/-- A field with an integer of 32 bits. -/
def uint32 (name : String) (set : UInt32 → σ → σ) : Field σ :=
  ⟨name, fun s => return (← readUnsigned "u32" (UInt32.size - 1) s).map fun n => set n.toUInt32⟩

/-- A field with an integer of 64 bits. -/
def uint64 (name : String) (set : UInt64 → σ → σ) : Field σ :=
  ⟨name, fun s => return (← readUnsigned "u64" (UInt64.size - 1) s).map fun n => set n.toUInt64⟩

/-- A field with a count of things in memory, which is an integer of 64 bits. -/
def count (name : String) (set : UInt64 → σ → σ) : Field σ :=
  ⟨name, fun s => return (← readUnsigned "usize" (UInt64.size - 1) s).map fun n => set n.toUInt64⟩

/-- A field with an object of its own. -/
def object {τ : Type} (name : String) (schema : Schema τ) (set : τ → σ → σ) : Field σ :=
  ⟨name, fun s => return (← schema.read s).map set⟩

/-- A field with a list of objects. -/
def objects {τ : Type} (name : String) (schema : Schema τ) (set : List τ → σ → σ) : Field σ :=
  ⟨name, fun s => return (← readList schema.read s).map set⟩

end Field

end Fieldbus.Json
