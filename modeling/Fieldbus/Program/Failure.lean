import Fieldbus.Settings.Load
import Fieldbus.Supervisor.Lifecycle

/-!
# Failures of a program

A failure is told by what went wrong and by its causes, the nearest first.
-/

namespace Fieldbus.Program

/-- Why a program fails. -/
inductive Failure where
  | load (path : String) (reason : LoadError)
  | settings (reason : SettingsError)
  | logDirectory (directory : String) (reason : Files.FileError)
  | logName (file : String)
  | logFile (file : String) (reason : Files.FileError)
  | supervisor (reason : SupervisorError)
  | socketAddress
  | portNumber
  | host (reason : String)
  | checks (count : Nat)
  deriving DecidableEq, Repr

namespace Failure

/-- What went wrong. -/
def message : Failure → String
  | load path _ => s!"failed to load config {path}"
  | settings reason => reason.message
  | logDirectory directory _ => s!"failed to create log directory {directory}"
  | logName file => s!"log file path '{file}' has no file name"
  | logFile file _ => s!"failed to create log file {file}"
  | supervisor reason => reason.message
  | socketAddress => "invalid socket address"
  | portNumber => "invalid port value"
  | host reason => reason
  | checks count => s!"{count} check(s) failed"

/-- The causes, the nearest first. -/
def causes : Failure → List String
  | load _ reason => [reason.message, reason.reason]
  | logDirectory _ reason | logFile _ reason => [reason.message]
  | supervisor (.startFailed _ reason) => [reason]
  | _ => []

/-- A text in which every line but the first begins with blanks. -/
private def hanging (blanks : Nat) (text : String) : String :=
  String.ofList (text.toList.flatMap fun c =>
    if c = '\n' then c :: List.replicate blanks ' ' else [c])

/-- The paragraph about the causes, which are numbered if there is more than one. -/
private def causesText : List String → String
  | [] => ""
  | [cause] => "\nCaused by:\n    " ++ hanging 4 cause ++ "\n"
  | causes =>
    "\nCaused by:\n" ++ String.join (causes.zipIdx.map fun (cause, n) =>
      s!"    {n}: " ++ hanging 7 cause ++ "\n")

/-- The failure as the program reports it at its end. -/
def report (f : Failure) : String :=
  "Error: " ++ f.message ++ "\n" ++ causesText f.causes

end Failure

end Fieldbus.Program
