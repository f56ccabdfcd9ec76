/-!
# Kinds and severities of events
-/
namespace Supervisor

inductive EventKind
  | stopping
  | stopped
  | clearingCaches
  | preparingEnvironment
  | starting
  | waitingReady
  | ready
  | failed
  | commandRejected
  | stateChanged
deriving DecidableEq, Repr, Inhabited

namespace EventKind

def all : List EventKind :=
  [.stopping, .stopped, .clearingCaches, .preparingEnvironment, .starting, .waitingReady, .ready,
    .failed, .commandRejected, .stateChanged]

def name : EventKind → String
  | .stopping => "stopping"
  | .stopped => "stopped"
  | .clearingCaches => "clearing_caches"
  | .preparingEnvironment => "preparing_environment"
  | .starting => "starting"
  | .waitingReady => "waiting_ready"
  | .ready => "ready"
  | .failed => "failed"
  | .commandRejected => "command_rejected"
  | .stateChanged => "state_changed"

def variants : List (String × EventKind) := all.map fun k => (k.name, k)

theorem lookup_name (k : EventKind) : variants.lookup k.name = some k := by cases k <;> decide

end EventKind

inductive Severity
  | debug
  | info
  | warning
  | error
deriving DecidableEq, Repr

instance : Inhabited Severity := ⟨.info⟩

namespace Severity

def all : List Severity := [.debug, .info, .warning, .error]

def name : Severity → String
  | .debug => "debug"
  | .info => "info"
  | .warning => "warning"
  | .error => "error"

def rank : Severity → Nat
  | .debug => 0
  | .info => 1
  | .warning => 2
  | .error => 3

def atLeast (s least : Severity) : Bool := least.rank ≤ s.rank

def variants : List (String × Severity) := all.map fun s => (s.name, s)

theorem lookup_name (s : Severity) : variants.lookup s.name = some s := by cases s <;> decide

end Severity

end Supervisor
