import Supervisor.Json.Shape
import Supervisor.Files.Path
import Supervisor.Fault
import Supervisor.Text.Blank
/-!
# Settings of a language server

How a server is started and how long it may take. Only what the process is started with calls for a
restart when it changes; time limits do not.
-/
namespace Supervisor

/-- Paths as they stand in settings. -/
def Path.shape : Json.Shape Path := .word "path string" (fun s => .ok ⟨s⟩) Path.text

structure ServerSettings where
  command : String := ""
  args : List String := []
  env : Table String := []
  workingDirectory : Option Path := none
  readyTimeoutSeconds : Nat := 60
  stopTimeoutSeconds : Nat := 5
  initializationOptions : Option Json := none
deriving Repr, Inhabited

namespace ServerSettings
open Json (kept)

def fields : Json.Fields
    (String × List String × Table String × Option Path × Nat × Nat × Option Json × Unit) :=
  .cons "command" (.default "") kept .text <|
  .cons "args" (.default []) kept (.list .text) <|
  .cons "env" (.default []) kept (.table .text) <|
  .cons "cwd" (.default none) Option.isNone (.optional Path.shape) <|
  .cons "readyTimeoutSecs" (.default 60) kept (.natural "u64" 64) <|
  .cons "stopTimeoutSecs" (.default 5) kept (.natural "u64" 64) <|
  .cons "initializationOptions" (.default none) Option.isNone (.optional .any)
  .nil

def shape : Json.Shape ServerSettings :=
  .record "ServerSettings" fields
    (fun (command, args, env, cwd, ready, stop, options, ()) =>
      ⟨command, args, env, cwd, ready, stop, options⟩)
    (fun s => (s.command, s.args, s.env, s.workingDirectory, s.readyTimeoutSeconds,
      s.stopTimeoutSeconds, s.initializationOptions, ()))

/-- No limit if the setting is zero. -/
def readyTimeout (s : ServerSettings) : Option Duration :=
  if s.readyTimeoutSeconds = 0 then none else some (.ofSeconds s.readyTimeoutSeconds)

theorem readyTimeout_eq_none_iff (s : ServerSettings) :
    s.readyTimeout = none ↔ s.readyTimeoutSeconds = 0 := by
  unfold readyTimeout
  split <;> simp_all

def stopTimeout (s : ServerSettings) : Duration := .ofSeconds s.stopTimeoutSeconds

def sameOptions : Option Json → Option Json → Bool
  | none, none => true
  | some a, some b => a.same b
  | _, _ => false

/-- Do both start the same process? -/
def startsSame (a b : ServerSettings) : Bool :=
  a.command == b.command && a.args == b.args && a.env == b.env &&
    Path.sameOption a.workingDirectory b.workingDirectory &&
    sameOptions a.initializationOptions b.initializationOptions

def requiresRestart (a b : ServerSettings) : Bool := !a.startsSame b

def same (a b : ServerSettings) : Bool :=
  a.startsSame b && a.readyTimeoutSeconds == b.readyTimeoutSeconds &&
    a.stopTimeoutSeconds == b.stopTimeoutSeconds

def hasCommand (s : ServerSettings) : Bool := !(Text.trim s.command.toList).isEmpty

def validate (s : ServerSettings) : Except Fault Unit :=
  if s.hasCommand then .ok () else .error (.config "server.command is not set")

end ServerSettings

end Supervisor
