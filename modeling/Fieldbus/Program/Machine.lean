import Fieldbus.Files.Tree

/-!
# Machines

What a program finds around itself when it begins, and what it leaves when it ends.
-/

namespace Fieldbus.Program

/-- The environment and the files of a machine, and its time, as the console and as files show
it. -/
structure Machine where
  environment : List (String × String) := []
  files : Files.Tree := {}
  time : String
  timestamp : String

/-- The end of a program: its exit status, what it wrote, and the files that it left. -/
structure Finished where
  status : Nat := 0
  out : String := ""
  error : String := ""
  files : Files.Tree

end Fieldbus.Program
