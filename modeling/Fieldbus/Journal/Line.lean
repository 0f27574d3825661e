import Fieldbus.Journal.Entry
import Fieldbus.Json.Document

/-!
# Lines of the journal

The console shows an entry as a line for reading; the file keeps it as one object per line.
-/

namespace Fieldbus.Journal

/-- A detail on the console. -/
def Detail.shown : Detail → String
  | .number value => toString value
  | .text value => value
  | .label value => quoted value

/-- A detail in the file. -/
def Detail.document : Detail → Json.Document
  | .number value => .number value
  | .text value | .label value => .text value

namespace Entry

/-- The line on the console: the time, the level set to the right in five columns, the message, and
each detail after its name. -/
def line (time : String) (e : Entry) : String :=
  let indent := String.ofList (List.replicate (5 - e.level.name.length) ' ')
  let details := e.details.map fun (name, value) => " " ++ name ++ "=" ++ value.shown
  time ++ " " ++ indent ++ e.level.name ++ " " ++ e.message ++ String.join details ++ "\n"

/-- The object in the file. -/
def record (timestamp : String) (e : Entry) : Json.Document :=
  .object
    [("timestamp", .text timestamp), ("level", .text e.level.name),
      ("fields",
        .object (("message", .text e.message) :: e.details.map fun (name, value) =>
          (name, value.document))),
      ("target", .text e.target)]

/-- The line in the file. -/
def recordLine (timestamp : String) (e : Entry) : String :=
  (e.record timestamp).renderCompact ++ "\n"

end Entry

end Fieldbus.Journal
