import Supervisor.Coordinator.Phase
import Supervisor.Dispatcher
import Supervisor.Event.Basic
import Supervisor.Settings.Basic
/-!
# Coordinators

A coordinator owns one language server. It carries out one operation at a time: what an operation
needs of others it asks for as a `Call`, and it goes on when the `Reply` comes in. Where it waits
is a `Stage`. So a coordinator is a value, and everything it does is an `Output` of a step.
-/
namespace Supervisor

abbrev ServerId := String

/-- What tells the servers apart that are stopped while caches are cleared. -/
abbrev DependentId := Nat

/-- Two coordinators can work together: when the main one clears caches, its companion stops. -/
inductive Seat
  | main
  | companion
deriving DecidableEq, Repr

/-- How a server is to be started. -/
structure LaunchSpec where
  settings : ServerSettings
  extraEnv : Table String := []
deriving Repr, Inhabited

/-- The variables of the process; those that were prepared win. -/
def LaunchSpec.environment (s : LaunchSpec) : Table String :=
  Table.override s.settings.env s.extraEnv

inductive Operation
  | activate
  | restart (t : Trigger)
  | configure (s : Settings)
  | stop
  /-- Stop and stay stopped while another coordinator clears caches. -/
  | yieldCaches
deriving Repr

/-- What an operation that succeeds tells its caller. -/
inductive Answer
  | done
  | flag (b : Bool)
deriving DecidableEq, Repr

inductive Call
  | stopServer (id : ServerId)
  | clearCaches (s : EnvironmentSettings)
  | prepareEnvironment (s : EnvironmentSettings)
  | launch (spec : LaunchSpec)
  | awaitReady (id : ServerId) (limit : Option Duration)
  | prepareDependent (d : DependentId)
  | finishDependent (d : DependentId)
  | removeDirectory (p : Path)
deriving Repr

inductive Reply
  | done
  | flag (b : Bool)
  | environment (env : Table String)
  | server (id : ServerId)
  | fault (f : Fault)
  | panicked (payload : String)
  /-- The limit of the call has passed. -/
  | overdue

/-- What the coordinator is told whose dependent has answered. -/
def Reply.ofResult : Except Fault Answer → Reply
  | .ok .done => .done
  | .ok (.flag b) => .flag b
  | .error f => .fault f

/-- One run of the start sequence. -/
structure Sequence where
  trigger : Trigger
  settings : Settings
  startedAt : Nat
  /-- What the caller is told when the server is ready. -/
  answer : Answer
  dependent : Option DependentId := none
  /-- Has the dependent to be started again at the end? -/
  resume : Bool := false
deriving Repr

/-- Where the running operation waits. -/
inductive Stage
  | stoppingDependent (s : Sequence)
  | stoppingOld (s : Sequence) (id : ServerId) (since : Nat)
  | clearing (s : Sequence)
  | preparing (s : Sequence)
  | launching (s : Sequence)
  | awaitingReady (s : Sequence) (id : ServerId)
  | stoppingUnready (s : Sequence) (id : ServerId) (reason : Fault)
  | resumingDependent (s : Sequence) (result : Except Fault Answer)
  | shuttingDown (id : ServerId) (since : Nat)
  | yielding (wasActive : Bool) (id : ServerId) (since : Nat)
  | removingCache (wasActive : Bool)

inductive Output
  /-- An operation was taken from the queue. -/
  | started (ticket : Ticket) (op : Operation)
  | notice (n : Notice)
  /-- The phase was set, perhaps to what it was. -/
  | phaseSet (p : Phase)
  | call (c : Call)
  | finished (ticket : Ticket) (result : Except Fault Answer)

structure Coordinator where
  name : String
  toolName : String
  settings : Settings
  handle : Option ServerId := none
  phase : Phase := .uninitialized
  /-- How often the phase was set; whoever waits for a change compares it. -/
  version : Nat := 0
  restartCount : Nat := 0
  lastError : Option String := none
  trigger : Option Trigger := none
  dependent : Option DependentId := none
  /-- The servers that are known not to run any more. -/
  down : List ServerId := []
  queue : Dispatcher Operation := {}
  stage : Option Stage := none

namespace Coordinator

def isRunning (c : Coordinator) (id : ServerId) : Bool := !c.down.contains id

def hasLiveServer (c : Coordinator) : Bool :=
  match c.handle with
  | some id => c.isRunning id
  | none => false

/-- Ready as far as the coordinator knows, but the server is gone. -/
def hasCrashed (c : Coordinator) : Bool := c.phase == .ready && !c.hasLiveServer

def isClearing (c : Coordinator) : Bool := (c.trigger.map Trigger.clearsCaches).getD false

/-- Puts an operation into the queue. -/
def submit (c : Coordinator) (op : Operation) : Option Ticket × Coordinator :=
  let (t, queue) := c.queue.submit op
  (t, { c with queue })

def setDependent (c : Coordinator) (d : DependentId) : Coordinator := { c with dependent := some d }

def serverDown (c : Coordinator) (id : ServerId) : Coordinator := { c with down := id :: c.down }

/-- What can be told about a coordinator at any time. -/
structure Snapshot where
  phase : Phase
  server : Option ServerId
  serverRunning : Bool
  trigger : Option Trigger
  restartCount : Nat
  lastError : Option String
  pending : Nat

def snapshot (c : Coordinator) : Snapshot where
  phase := c.phase
  server := c.handle
  serverRunning := c.hasLiveServer
  trigger := c.trigger
  restartCount := c.restartCount
  lastError := c.lastError
  pending := c.queue.pending

/-- The members are in ascending order. -/
def Snapshot.toJson (s : Snapshot) : Json :=
  let text (o : Option String) : Json := (o.map Json.string).getD .null
  .object [
    ("lastError", text s.lastError),
    ("pendingOperations", .nat s.pending),
    ("restartCount", .nat s.restartCount),
    ("serverId", text s.server),
    ("serverRunning", .bool s.serverRunning),
    ("state", .string s.phase.name),
    ("trigger", text (s.trigger.map Trigger.name))]

end Coordinator

end Supervisor
