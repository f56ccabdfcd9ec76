/-!
# Phases and triggers

The phase of a coordinator, and what can make it start its server again.
-/
namespace Supervisor

inductive Phase
  | uninitialized
  | starting
  | ready
  | restarting
  | failed
deriving DecidableEq, Repr, Inhabited

namespace Phase

def all : List Phase := [.uninitialized, .starting, .ready, .restarting, .failed]

def name : Phase → String
  | .uninitialized => "uninitialized"
  | .starting => "starting"
  | .ready => "ready"
  | .restarting => "restarting"
  | .failed => "failed"

/-- In this phase commands are answered with the last error. -/
def isErrorStub (p : Phase) : Bool := p == .failed

def isTransition (p : Phase) : Bool := p == .starting || p == .restarting

end Phase

inductive Trigger
  | activate
  | command
  | configurationChanged
  | clearCaches
  | crash
  | linked
deriving DecidableEq, Repr, Inhabited

namespace Trigger

def all : List Trigger :=
  [.activate, .command, .configurationChanged, .clearCaches, .crash, .linked]

def name : Trigger → String
  | .activate => "activate"
  | .command => "command"
  | .configurationChanged => "configuration_changed"
  | .clearCaches => "clear_caches"
  | .crash => "crash"
  | .linked => "linked"

def clearsCaches (t : Trigger) : Bool := t == .clearCaches

theorem clearsCaches_eq_decide (t : Trigger) : t.clearsCaches = decide (t = .clearCaches) := by
  cases t <;> rfl

end Trigger

end Supervisor
