import Fieldbus.Files.Tree
import Fieldbus.Settings.Document

/-!
# Loading settings

Settings are read from a file.  If there is none at the path, one with the defaults is made, with
the directories around it, and the defaults are used.  Whether there is one is asked first, so that
a path that goes up out of a missing directory may lead to a file as soon as this directory is made.
-/

namespace Fieldbus

open Files

/-- Where loaded settings come from. -/
inductive Source where
  | file
  | createdDefaults
  deriving DecidableEq, Repr

/-- Why settings could not be loaded.  A failure to read the text comes with its line and column. -/
inductive LoadError where
  | files (path : String) (reason : FileError)
  | form (path : String) (failure : Json.Failure) (line column : Nat)
  deriving DecidableEq, Repr

namespace LoadError

/-- The reason alone. -/
def reason : LoadError → String
  | files _ reason => reason.message
  | form _ failure line column => s!"{failure.cause.message} at line {line} column {column}"

/-- The path and a reason. -/
private def about : LoadError → String → String
  | files path _, text => s!"config file '{path}': {text}"
  | form path .., text => s!"failed to parse config file '{path}': {text}"

/-- The wording of the error. -/
def message (e : LoadError) : String :=
  e.about e.reason

/-- The wording of the error, without the place in the text. -/
def brief (e : LoadError) : String :=
  match e with
  | files _ reason => e.about reason.message
  | form _ failure .. => e.about failure.cause.message

end LoadError

namespace Settings

/-- Makes a file with the defaults at a path where nothing is. -/
def createFile (tree : Tree) (path : List Char) : Except FileError Unit × Tree :=
  let made : Except FileError Unit × Tree := match parent? path with
    | none => (.ok (), tree)
    | some around => tree.makeDirectories (Tree.ancestry around)
  match made with
  | (.error e, tree) => (.error e, tree)
  | (.ok (), tree) =>
    match tree.writeFile path (render {}).toUTF8.toList with
    | .ok tree => (.ok (), tree)
    | .error e => (.error e, tree)

/-- Reads settings from the text that a file holds, if that could be read. -/
def ofText (path : String) : Except FileError String → Except LoadError Settings
  | .error e => .error (.files path e)
  | .ok text =>
    match parse text with
    | .ok settings => .ok settings
    | .error failure =>
      let (line, column) := failure.position text
      .error (.form path failure line column)

/-- Reads settings from the file at a path, which exists. -/
def readFile (tree : Tree) (path : String) : Except LoadError Settings :=
  ofText path (tree.readText path.toList)

/-- Reads settings from the file at a path, or makes it with the defaults if there is none. -/
def load (tree : Tree) (path : String) : Except LoadError (Settings × Source) × Tree :=
  match tree.find path.toList with
  | .ok _ => ((readFile tree path).map fun settings => (settings, .file), tree)
  | .error _ =>
    match createFile tree path.toList with
    | (.ok (), tree) => (.ok ({}, .createdDefaults), tree)
    | (.error e, tree) => (.error (.files path e), tree)

end Settings

end Fieldbus
