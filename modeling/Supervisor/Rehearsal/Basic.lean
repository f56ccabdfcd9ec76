import Supervisor.Coordinator.Gate
import Supervisor.Coordinator.Step
import Supervisor.Event.Bus
import Supervisor.Files.Tree
import Supervisor.Rehearsal.Script
/-!
# Rehearsals

A rehearsal runs one or two coordinators on a clock of milliseconds, with collaborators that follow
scripts. Everything that can run does so in the order in which it was woken; when nothing can run
any more, the clock moves to the next alarm.
-/
namespace Supervisor

/-- What a worker goes on with when a call has ended. -/
inductive Promise
  | reply (r : Reply)
  /-- Something is written down, and then the reply is given. -/
  | noted (a : Act) (r : Reply)
  /-- A server that follows this script is there. -/
  | launched (s : ServerScript)

/-- One coordinator and its collaborators. -/
structure Player where
  coordinator : Coordinator
  /-- The scripts of the servers, in the order of their launches; the last one serves for all later
  ones. -/
  servers : List ServerScript := []
  tool : Option ToolScript := none
  dependent : Dependent := .nobody
  launches : Nat := 0
  /-- The servers that were launched, the latest first. -/
  cast : List (ServerId × ServerScript) := []
  /-- How the latest server was launched. -/
  spec : Option LaunchSpec := none
  incoming : Option Promise := none
  /-- The ticket of the companion for which the worker waits. -/
  errand : Option Ticket := none

/-- What a caller wants of a coordinator. -/
inductive Purpose
  /-- The result of an operation that was accepted. -/
  | operation (t : Ticket)
  | forward (name method : String) (params : Option Json)
  | execute (name : String) (job : Course Json)
  | serverHandle
  | stopHandle

/-- What a caller is told. -/
inductive Verdict
  | result (r : Except Fault Json)
  | panicked (p : Payload)

def Verdict.ofFault (f : Fault) : Verdict := .result (.error f)

/-- What a caller goes on with when a call has ended. -/
inductive Sequel
  | verdict (v : Verdict)
  | noted (a : Act) (v : Json)
  /-- The value of a job that was carried out with this server. -/
  | worked (id : ServerId) (v : Json)

structure Visit where
  seat : Seat
  purpose : Purpose
  wait : Duration := standardWait
  deadline : Nat := 0
  /-- Is it waiting for a change? -/
  watching : Bool := false
  incoming : Option Sequel := none
  stay : Stay Verdict := .waiting

def Visit.verdict (v : Visit) : Option Verdict := v.stay.answer?

/-- What can be woken. -/
inductive Task
  | worker (s : Seat)
  | visit (n : Nat)
deriving DecidableEq, Repr

/-- What an alarm brings. -/
inductive Delivery
  | promise (s : Seat) (p : Promise)
  | sequel (n : Nat) (s : Sequel)
  /-- The deadline of a visit that waits for a change. -/
  | deadline (n : Nat)

structure Alarm where
  time : Nat
  delivery : Delivery

structure Rehearsal where
  clock : Nat := 0
  main : Player
  companion : Option Player := none
  bus : Bus := {}
  files : Files
  /-- Everything that was published, the latest first. -/
  notices : List Notice := []
  /-- Everything that was written down, the latest first. -/
  entries : List Entry := []
  /-- How many servers have been given a name. -/
  issued : Nat := 0
  visits : List Visit := []
  /-- The tasks that can run, in the order in which they were woken. -/
  runnable : List Task := []
  /-- In the order in which they were set. -/
  alarms : List Alarm := []

namespace Rehearsal

def player? (r : Rehearsal) : Seat → Option Player
  | .main => some r.main
  | .companion => r.companion

def setPlayer (r : Rehearsal) (s : Seat) (p : Player) : Rehearsal :=
  match s with
  | .main => { r with main := p }
  | .companion => { r with companion := some p }

def modifyPlayer (r : Rehearsal) (s : Seat) (f : Player → Player) : Rehearsal :=
  match r.player? s with
  | some p => r.setPlayer s (f p)
  | none => r

def modifyVisit (r : Rehearsal) (n : Nat) (f : Visit → Visit) : Rehearsal :=
  { r with visits := r.visits.modify n f }

def note (r : Rehearsal) (s : Seat) (a : Act) : Rehearsal :=
  { r with entries := ⟨r.clock, s, a⟩ :: r.entries }

def publish (r : Rehearsal) (n : Notice) : Rehearsal :=
  { r with bus := r.bus.publish n, notices := n :: r.notices }

/-- A task that can run already is not woken again. -/
def wake (r : Rehearsal) (t : Task) : Rehearsal :=
  if r.runnable.contains t then r else { r with runnable := r.runnable ++ [t] }

def setAlarm (r : Rehearsal) (time : Nat) (d : Delivery) : Rehearsal :=
  { r with alarms := r.alarms ++ [⟨time, d⟩] }

/-- The server is not running any more. -/
def serverDown (r : Rehearsal) (s : Seat) (id : ServerId) : Rehearsal :=
  r.modifyPlayer s fun p => { p with coordinator := p.coordinator.serverDown id }

end Rehearsal

def Player.scriptOf (p : Player) (id : ServerId) : ServerScript := (p.cast.lookup id).getD {}

/-- The script of the next server that is launched. -/
def Player.nextScript (p : Player) : ServerScript :=
  (p.servers[p.launches]?).getD (p.servers.getLast?.getD {})

end Supervisor
