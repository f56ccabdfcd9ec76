import Supervisor.Course
import Supervisor.Coordinator.Basic
/-!
# Scripts

What the collaborators of a coordinator do in a rehearsal, and what is written down about them.
-/
namespace Supervisor

/-- A call that succeeds without delay. -/
def Course.atOnce {α : Type} (a : α) : Course α := { ending := .value a }

structure ServerScript where
  launch : Course Unit := .atOnce ()
  ready : Course Unit := .atOnce ()
  stop : Course Unit := .atOnce ()
  request : Course Unit := .atOnce ()

structure ToolScript where
  clear : Course Unit := .atOnce ()
  prepare : Course (Table String) := .atOnce []

structure DependentScript where
  /-- Was the dependent running? -/
  prepare : Course Bool := .atOnce false
  finish : Course Unit := .atOnce ()

/-- Who stops while caches are cleared. -/
inductive Dependent
  | nobody
  | scripted (s : DependentScript)
  | companion

inductive Act
  | launch (command : String)
  | launched (id : ServerId)
  | awaitReady (id : ServerId)
  | ready (id : ServerId)
  | stop (id : ServerId)
  | stopped (id : ServerId)
  | request (id : ServerId) (method : String)
  | clear (spaces : String)
  | cleared
  | prepare (space : String)
  | prepared
  | prepareDependent
  | finishDependent
deriving DecidableEq, Repr

def Act.text : Act → String
  | .launch command => "launch " ++ command
  | .launched id => "launched " ++ id
  | .awaitReady id => "wait_ready " ++ id
  | .ready id => "ready " ++ id
  | .stop id => "stop " ++ id
  | .stopped id => "stopped " ++ id
  | .request id method => "request " ++ id ++ " " ++ method
  | .clear spaces => "clear " ++ spaces
  | .cleared => "cleared"
  | .prepare space => "prepare " ++ space
  | .prepared => "prepared"
  | .prepareDependent => "dep prepare_restart"
  | .finishDependent => "dep finish_restart"

/-- An act, when it happened and with whom. -/
structure Entry where
  time : Nat
  seat : Seat
  act : Act
deriving DecidableEq, Repr

def Entry.text (e : Entry) : String :=
  toString e.time ++ " " ++
    (match e.seat with
      | .main => ""
      | .companion => "dep:") ++ e.act.text

end Supervisor
