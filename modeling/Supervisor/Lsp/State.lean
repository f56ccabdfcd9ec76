/-!
# States of a server process
-/
namespace Supervisor.Lsp

inductive ServerState
  | initializing
  | ready
  | shuttingDown
  | shutdown
  | crashed
deriving DecidableEq, Repr, Inhabited

namespace ServerState

def all : List ServerState := [.initializing, .ready, .shuttingDown, .shutdown, .crashed]

def name : ServerState → String
  | .initializing => "Initializing"
  | .ready => "Ready"
  | .shuttingDown => "ShuttingDown"
  | .shutdown => "Shutdown"
  | .crashed => "Crashed"

def isRunning (s : ServerState) : Bool := s == .initializing || s == .ready

/-- Has a stop begun? -/
def isStopping (s : ServerState) : Bool := s == .shuttingDown || s == .shutdown

/-- The order in which states follow each other. -/
def rank : ServerState → Nat
  | .initializing => 0
  | .ready => 1
  | .crashed => 2
  | .shuttingDown => 3
  | .shutdown => 4

end ServerState

end Supervisor.Lsp
