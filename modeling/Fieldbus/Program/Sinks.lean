import Fieldbus.Journal.Filter
import Fieldbus.Journal.Line
import Fieldbus.Program.Failure
import Fieldbus.Program.Machine

/-!
# Sinks of the journal

The journal goes to the console, to a file, to both, or nowhere, as the settings say.
-/

namespace Fieldbus.Program

open Journal

/-- Where the journal goes and what is shown there. -/
structure Sinks where
  console : Option Filter := none
  file : Option (List Char × Filter) := none

namespace Sinks

/-- The directory and the name of a log file.  A file of one name lies in the working directory. -/
def logPlace (file : String) : List Char × Option String :=
  let directory := match Files.parent? file.toList with
    | none | some [] => ['.']
    | some path => path
  (directory, Files.fileName? file.toList)

/-- Makes the log file and the directories around it, unless they exist. -/
def openFile (tree : Files.Tree) (file : String) :
    Except Failure (List Char) × Files.Tree :=
  let (directory, name) := logPlace file
  match tree.makeDirectories (Files.Tree.ancestry directory), name with
  | (.error e, tree), _ => (.error (.logDirectory (String.ofList directory) e), tree)
  | (.ok (), tree), none => (.error (.logName file), tree)
  | (.ok (), tree), some name =>
    let path := directory ++ '/' :: name.toList
    match tree.appendFile path [] with
    | .ok tree => (.ok path, tree)
    | .error e => (.error (.logFile file e), tree)

/-- Opens the sinks that the settings ask for. -/
def ofSettings (machine : Machine) (tree : Files.Tree) (s : LoggingSettings) :
    Except Failure Sinks × Files.Tree :=
  let filter := Filter.choose (machine.environment.lookup "RUST_LOG") s.level
  let console := if s.console then some filter else none
  if s.file = "" then (.ok { console }, tree)
  else
    let (opened, tree) := openFile tree s.file
    (opened.map fun path => { console, file := some (path, filter) }, tree)

/-- What the console shows of a journal. -/
def consoleText (sinks : Sinks) (time : String) (entries : List Entry) : String :=
  match sinks.console with
  | none => ""
  | some filter => String.join ((entries.filter filter.shows).map (·.line time))

/-- What the file receives of a journal. -/
def fileText (filter : Filter) (timestamp : String) (entries : List Entry) : String :=
  String.join ((entries.filter filter.shows).map (·.recordLine timestamp))

/-- Writes a journal to the file. -/
def writeFile (sinks : Sinks) (machine : Machine) (tree : Files.Tree) (entries : List Entry) :
    Files.Tree :=
  match sinks.file with
  | none => tree
  | some (path, filter) =>
    let text := fileText filter machine.timestamp entries
    (tree.appendFile path text.toUTF8.toList).toOption.getD tree

end Sinks

end Fieldbus.Program
