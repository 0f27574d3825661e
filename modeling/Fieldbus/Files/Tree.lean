import Fieldbus.Files.Path

/-!
# File trees

A tree holds files and directories under the names on the way to them from the root.  Its operations
fail as those of an operating system do, with the change that was made until then.
-/

namespace Fieldbus.Files

/-- What stands at a place of the tree. -/
inductive Entry where
  | file (content : List UInt8)
  | directory
  deriving DecidableEq, Repr

/-- Why an operation on files failed.  What a tree knows nothing of comes with the words of the
system. -/
inductive FileError where
  | notFound
  | alreadyExists
  | notDirectory
  | isDirectory
  | nameTooLong
  | nulByte
  | notText
  | system (text : String)
  deriving DecidableEq, Repr

/-- The wording of the failure. -/
def FileError.message : FileError → String
  | notFound => "No such file or directory (os error 2)"
  | alreadyExists => "File exists (os error 17)"
  | notDirectory => "Not a directory (os error 20)"
  | isDirectory => "Is a directory (os error 21)"
  | nameTooLong => "File name too long (os error 36)"
  | nulByte => "file name contained an unexpected NUL byte"
  | notText => "stream did not contain valid UTF-8"
  | system text => text

/-- The text that bytes hold. -/
def textOf (content : ByteArray) : Except FileError String :=
  match String.fromUTF8? content with
  | some text => .ok text
  | none => .error .notText

/-- A place: the names from the root down. -/
abbrev Place := List String

/-- Files and directories, and the directory in which relative paths start.  The root is always
there. -/
structure Tree where
  working : Place := []
  entries : List (Place × Entry) := []
  deriving DecidableEq, Repr

namespace Tree

/-- What stands at a place. -/
def entry? (t : Tree) (place : Place) : Option Entry :=
  if place = [] then some .directory else t.entries.lookup place

/-- Puts an entry at a place, instead of what was there. -/
def insert (t : Tree) (place : Place) (entry : Entry) : Tree :=
  { t with entries := (place, entry) :: t.entries.filter fun e => e.1 ≠ place }

/-- One step down, up or nowhere from a place, which must be a directory. -/
def step (t : Tree) (place : Place) (name : String) : Except FileError Place :=
  if t.entry? place ≠ some .directory then .error .notDirectory
  else if name = "." then .ok place
  else if name = ".." then .ok place.dropLast
  else if maxPartBytes < name.utf8ByteSize then .error .nameTooLong
  else if (t.entry? (place ++ [name])).isSome then .ok (place ++ [name])
  else .error .notFound

/-- The place where steps lead. -/
def walk (t : Tree) (place : Place) : List String → Except FileError Place
  | [] => .ok place
  | name :: names => do t.walk (← t.step place name) names

/-- The place where a path starts. -/
def start (t : Tree) (path : List Char) : Place :=
  if IsAbsolute path then [] else t.working

/-- A path that no operation accepts. -/
def checkPath (path : List Char) : Except FileError Unit :=
  if path.contains '\x00' then .error .nulByte
  else if maxPathBytes < Json.byteCount path then .error .nameTooLong
  else if path = [] then .error .notFound
  else .ok ()

/-- The place that a path names, and what stands there. -/
def find (t : Tree) (path : List Char) : Except FileError (Place × Entry) := do
  checkPath path
  let place ← t.walk (t.start path) (steps path)
  match t.entry? place with
  | none => .error .notFound
  | some .directory => return (place, .directory)
  | some (.file content) =>
    if EndsWithStroke path then .error .notDirectory else return (place, .file content)

/-- Whether a path names a directory. -/
def isDirectory (t : Tree) (path : List Char) : Bool :=
  match t.find path with
  | .ok (_, .directory) => true
  | _ => false

/-- The directory in which the last name of a path would stand, and that name; nothing for a path
that ends with a dot or goes up. -/
def slot (t : Tree) (path : List Char) : Except FileError (Place × Option String) := do
  checkPath path
  let names := steps path
  let place ← t.walk (t.start path) names.dropLast
  if t.entry? place ≠ some .directory then .error .notDirectory
  else
    match names.getLast? with
    | none => return (place, none)
    | some name => return (place, if name = "." ∨ name = ".." then none else some name)

/-- Makes a directory; the directory around it must exist. -/
def makeDirectory (t : Tree) (path : List Char) : Except FileError Tree := do
  match ← t.slot path with
  | (_, none) => .error .alreadyExists
  | (place, some name) =>
    if maxPartBytes < name.utf8ByteSize then .error .nameTooLong
    else if (t.entry? (place ++ [name])).isSome then .error .alreadyExists
    else return t.insert (place ++ [name]) .directory

/-- A path and the paths of the directories around it, the nearest first. -/
def ancestry (path : List Char) : List (List Char) :=
  go path.length path
where
  /-- At most `limit` directories up. -/
  go (limit : Nat) (path : List Char) : List (List Char) :=
    match limit, parent? path with
    | limit + 1, some up => path :: go limit up
    | _, _ => [path]

/-- Makes a directory unless it exists, and before it those around it that are missing. -/
def makeDirectories (t : Tree) : List (List Char) → Except FileError Unit × Tree
  | [] => (.ok (), t)
  | path :: around =>
    if path = [] then (.ok (), t)
    else
      match t.makeDirectory path with
      | .ok made => (.ok (), made)
      | .error .notFound =>
        match t.makeDirectories around with
        | (.error e, t) => (.error e, t)
        | (.ok (), t) =>
          match t.makeDirectory path with
          | .ok made => (.ok (), made)
          | .error e => if t.isDirectory path then (.ok (), t) else (.error e, t)
      | .error e => if t.isDirectory path then (.ok (), t) else (.error e, t)

/-- Makes a file with this content, or gives a file that exists this content. -/
def writeFile (t : Tree) (path : List Char) (content : List UInt8) : Except FileError Tree := do
  match ← t.slot path with
  | (_, none) => .error .isDirectory
  | (place, some name) =>
    if EndsWithStroke path then .error .isDirectory
    else if maxPartBytes < name.utf8ByteSize then .error .nameTooLong
    else if t.entry? (place ++ [name]) = some .directory then .error .isDirectory
    else return t.insert (place ++ [name]) (.file content)

/-- Adds to the end of a file, which is made if it does not exist. -/
def appendFile (t : Tree) (path : List Char) (content : List UInt8) : Except FileError Tree :=
  match t.find path with
  | .ok (_, .file old) => t.writeFile path (old ++ content)
  | _ => t.writeFile path content

/-- The text in a file. -/
def readText (t : Tree) (path : List Char) : Except FileError String := do
  match ← t.find path with
  | (_, .directory) => .error .isDirectory
  | (_, .file content) => textOf ⟨content.toArray⟩

end Tree

end Fieldbus.Files
