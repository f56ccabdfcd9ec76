import Supervisor.Coordinator.Basic
/-!
# The gate

Commands are carried out with the server of a coordinator that is ready. A command that comes while
the server starts may wait; it looks again after every change, until its deadline.
-/
namespace Supervisor

/-- How long commands wait if nothing else is said. -/
def standardWait : Duration := .ofSeconds 30

/-- What a command finds when it looks at a coordinator. -/
inductive Admission
  | enter (id : ServerId)
  | refuse (f : Fault)
  /-- Look again after the next change, or at the deadline. -/
  | wait
deriving Repr

namespace Coordinator

def notRunningFault : Fault := .unavailable "language server is not running"

def handleMissingFault : Fault := .unavailable "language server handle missing"

def clearingFault : Fault := .unavailable "Unable to run commands while clearing environments"

def failedFault (lastError : Option String) : Fault :=
  .unavailable ("language server failed to start (" ++ lastError.getD "unknown error" ++
    "); restart it to continue")

def waitedFault (p : Phase) (wait : Duration) : Fault :=
  .timeout ("language server still " ++ p.name ++ " after " ++ wait.text)

/-- One look at a coordinator, by a command that has `wait` time and gives up at `deadline`. -/
def admission (c : Coordinator) (now deadline : Nat) (wait : Duration) : Admission :=
  match c.phase with
  | .ready =>
    match c.handle with
    | some id => .enter id
    | none => .refuse handleMissingFault
  | .failed => .refuse (failedFault c.lastError)
  | .uninitialized => .refuse notRunningFault
  | .starting | .restarting =>
    if c.isClearing then .refuse clearingFault
    else if deadline ≤ now then .refuse (waitedFault c.phase wait)
    else .wait

/-- What is published when a command is refused. -/
def rejectedNotice (command : String) (f : Fault) : Notice :=
  .ofFault .commandRejected ("Cannot run '" ++ command ++ "': " ++ f.message) f

end Coordinator

/-! ## Guests -/

/-- Someone who comes to use the server of a coordinator. -/
structure Guest where
  /-- The command that it carries out, if others are to hear when it is refused. -/
  command : Option String
  wait : Duration
  deadline : Nat

/-- How far a guest has come; in the end it has an answer. -/
inductive Stay (ρ : Type)
  | waiting
  | working (id : ServerId)
  | left (answer : ρ)

namespace Stay
variable {ρ : Type}

def answer? : Stay ρ → Option ρ
  | .left a => some a
  | _ => none

def isWaiting : Stay ρ → Bool
  | .waiting => true
  | _ => false

/-- Where a guest is after a look; `refusal` is what it answers to a fault. -/
def ofAdmission (refusal : Fault → ρ) : Admission → Stay ρ
  | .enter id => .working id
  | .refuse f => .left (refusal f)
  | .wait => .waiting

end Stay

namespace Guest
variable {ρ : Type}

/-- One look at a coordinator, and what is published then. -/
def look (g : Guest) (c : Coordinator) (now : Nat) : Admission × List Notice :=
  match c.admission now g.deadline g.wait with
  | .refuse f => (.refuse f, (g.command.map fun name => Coordinator.rejectedNotice name f).toList)
  | a => (a, [])

/-- Who does not wait any more does not look either. -/
def step (g : Guest) (refusal : Fault → ρ) (c : Coordinator) (now : Nat) :
    Stay ρ → Stay ρ × List Notice
  | .waiting =>
    let (a, notices) := g.look c now
    (.ofAdmission refusal a, notices)
  | s => (s, [])

end Guest

end Supervisor
