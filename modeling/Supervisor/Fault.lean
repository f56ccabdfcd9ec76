import Supervisor.Time.Duration
/-!
# Faults

The ways in which an operation of the supervisor fails, with a code for programs and a message for
people.
-/
namespace Supervisor

inductive Fault
  | config (reason : String)
  | spawn (command reason : String)
  | readyTimeout (limit : Duration)
  | readyRejected (reason : String)
  | stop (reason : String)
  | request (reason : String)
  | externalTool (tool : String) (code : Option Int) (output : String)
  | unavailable (reason : String)
  | dispatcherClosed
  | operationPanicked (payload : String)
  | timeout (reason : String)
  | notFound (reason : String)
  | io (reason : String)
  | json (reason : String)
  | internal (reason : String)
deriving DecidableEq, Repr

namespace Fault

def code : Fault → String
  | .config _ => "E_CONFIG"
  | .spawn _ _ => "E_SPAWN"
  | .readyTimeout _ => "E_READY_TIMEOUT"
  | .readyRejected _ => "E_READY_REJECTED"
  | .stop _ => "E_STOP"
  | .request _ => "E_REQUEST"
  | .externalTool _ _ _ => "E_EXTERNAL_TOOL"
  | .unavailable _ => "E_UNAVAILABLE"
  | .dispatcherClosed => "E_DISPATCHER_CLOSED"
  | .operationPanicked _ => "E_PANIC"
  | .timeout _ => "E_TIMEOUT"
  | .notFound _ => "E_NOT_FOUND"
  | .io _ => "E_IO"
  | .json _ => "E_JSON"
  | .internal _ => "E_INTERNAL"

def exitCodeText : Option Int → String
  | some n => "Some(" ++ toString n ++ ")"
  | none => "None"

def message : Fault → String
  | .config reason => "Configuration error: " ++ reason
  | .spawn command reason => "Failed to start language server " ++ command ++ ": " ++ reason
  | .readyTimeout limit => "Language server did not become ready within " ++ limit.text
  | .readyRejected reason => "Language server rejected initialization: " ++ reason
  | .stop reason => "Failed to stop language server: " ++ reason
  | .request reason => "Language server request failed: " ++ reason
  | .externalTool tool code output =>
    "External tool " ++ tool ++ " failed (exit code " ++ exitCodeText code ++ "): " ++ output
  | .unavailable reason => "Unavailable: " ++ reason
  | .dispatcherClosed => "Dispatcher queue is closed"
  | .operationPanicked payload => "Operation panicked: " ++ payload
  | .timeout reason => "Timeout: " ++ reason
  | .notFound reason => "Not found: " ++ reason
  | .io reason => "IO error: " ++ reason
  | .json reason => "JSON error: " ++ reason
  | .internal reason => "Internal error: " ++ reason

/-- Is the message meant for the user, who can do something about it? -/
def isUserFacing : Fault → Bool
  | .config _ | .spawn _ _ | .readyTimeout _ | .readyRejected _ | .externalTool _ _ _
  | .unavailable _ | .notFound _ => true
  | _ => false

/-- Code and message in one line. -/
def summary (f : Fault) : String := f.code ++ ": " ++ f.message

end Fault

end Supervisor
