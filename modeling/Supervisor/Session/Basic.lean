import Supervisor.Coordinator.Step
import Supervisor.Event.Bus
import Supervisor.Machine.Server
import Supervisor.Session.Console
/-!
# Sessions

A session runs a language server on a machine, and a companion server if there is one in the settings
that it began with. It carries out one operation at a time, and while it does so it hears nothing else.
-/
namespace Supervisor

/-- A coordinator, and the launcher with which it starts its servers. -/
structure Post where
  coordinator : Coordinator
  launcher : Launcher := {}

structure Session where
  machine : Machine
  main : Post
  companion : Option Post := none
  /-- Where the settings are, if not in the stores. -/
  settingsFile : Option Path := none
  bus : Bus := {}
  console : Console := {}

namespace Session

def post? (s : Session) : Seat → Option Post
  | .main => some s.main
  | .companion => s.companion

/-- The companion's seat stays empty if it was empty. -/
def modifyPost (s : Session) (seat : Seat) (f : Post → Post) : Session :=
  match seat with
  | .main => { s with main := f s.main }
  | .companion => { s with companion := s.companion.map f }

def print (s : Session) (line : String) : Session := { s with console := s.console.print line }

def complain (s : Session) (line : String) : Session := { s with console := s.console.complain line }

def report (s : Session) (context : String) (f : Fault) : Session :=
  { s with console := s.console.report context f }

def publish (s : Session) (n : Notice) : Session :=
  { s with bus := s.bus.publish n, console := s.console.tell n }

/-! ## Operations -/

/-- A coordinator that knows which servers of the machine do not run any more. -/
def informed (s : Session) (c : Coordinator) : Coordinator :=
  { c with down := (s.machine.connections.map (·.client.id)).filter (!s.machine.isRunning ·) }

/-- What a turn has brought. -/
def absorb (s : Session) (seat : Seat) (t : Coordinator.Turn) : Session :=
  t.outputs.foldl
    (fun s o => match o with
      | .notice n => s.publish n
      | _ => s)
    (s.modifyPost seat fun p => { p with coordinator := t.state })

/-- The call with which a turn ends, if it ends with one. -/
def callOf (t : Coordinator.Turn) : Option Call :=
  t.outputs.findSome? fun
    | .call c => some c
    | _ => none

/-- The result of the operation that ended in a turn. -/
def resultOf (t : Coordinator.Turn) : Option (Except Fault Answer) :=
  t.outputs.findSome? fun
    | .finished _ r => some r
    | _ => none

def replyOf : Except Fault Unit → Reply
  | .ok () => .done
  | .error f => .fault f

/-- What comes of something that a session does. A session that waits without a limit for what never
comes is held up: it stays as it is then, and does nothing more. -/
abbrev Doing (α : Type) := Except Session α

/-- How an operation is carried out; for the result the session is as the operation left it. -/
abbrev Conduct := Operation → Session → Doing (Except Fault Answer × Session)

/-- Makes a call for a coordinator. Only the main one has a tool and a dependent: the tool works on
the machine, and the dependent carries out its part. -/
def perform (s : Session) (seat : Seat) (launcher : Launcher) (dependent : Conduct) :
    Call → Doing (Reply × Session)
  | .stopServer id =>
    let (r, machine) := s.machine.stop id
    .ok (replyOf r, { s with machine })
  | .clearCaches e =>
    match seat with
    | .main =>
      let (r, machine) := Holotree.clear Machine.workshop e s.machine
      .ok (replyOf r, { s with machine })
    | .companion => .ok (.done, s)
  | .prepareEnvironment e =>
    match seat with
    | .main =>
      match Holotree.prepare Machine.workshop e s.machine with
      | (.ok env, machine) => .ok (.environment env, { s with machine })
      | (.error f, machine) => .ok (.fault f, { s with machine })
    | .companion => .ok (.environment [], s)
  | .launch spec =>
    match s.machine.launch launcher spec with
    | (.ok id, launcher, machine) =>
      .ok (.server id, { s with machine }.modifyPost seat fun p => { p with launcher })
    | (.error f, launcher, machine) =>
      .ok (.fault f, { s with machine }.modifyPost seat fun p => { p with launcher })
  | .awaitReady id limit =>
    match s.machine.waitReady id (limit.map Duration.millis), limit with
    | (some r, machine), _ => .ok (replyOf r, { s with machine })
    | (none, machine), some _ => .ok (.overdue, { s with machine })
    | (none, machine), none => .error { s with machine }
  | .prepareDependent _ => do
    let (r, s) ← dependent .yieldCaches s
    return (Reply.ofResult r, s)
  | .finishDependent _ => do
    let (r, s) ← dependent (.restart .linked) s
    return (Reply.ofResult r, s)
  | .removeDirectory p => .ok (.done, { s with machine := s.machine.removeDirectory p })

/-- More calls than one operation makes. -/
def callBound : Nat := 16

def unfinishedFault : Fault := .internal "operation did not finish"

/-- Takes turns with the machine until the operation has ended. -/
def takeTurns (seat : Seat) (dependent : Conduct) :
    Nat → Session → Coordinator.Turn → Doing (Except Fault Answer × Session)
  | 0, s, _ => .ok (.error unfinishedFault, s)
  | n + 1, s, t =>
    let s := s.absorb seat t
    match callOf t, s.post? seat with
    | some c, some p => do
      let (reply, s) ← s.perform seat p.launcher dependent c
      match s.post? seat with
      | some p =>
        takeTurns seat dependent n s ((s.informed p.coordinator).reply s.machine.clock reply)
      | none => .ok (.error unfinishedFault, s)
    | _, _ => .ok ((resultOf t).getD (.error unfinishedFault), s)

def conduct (seat : Seat) (dependent : Conduct) : Conduct := fun op s =>
  match s.post? seat with
  | none => .ok (.error .dispatcherClosed, s)
  | some p =>
    match p.coordinator.submit op with
    | (none, _) => .ok (.error .dispatcherClosed, s)
    | (some _, c) => takeTurns seat dependent callBound s ((s.informed c).wake s.machine.clock)

/-- Nobody's part. -/
def idle : Conduct := fun _ s => .ok (.ok .done, s)

/-- Carries out an operation of one coordinator. The companion is the dependent of the main one. -/
def carryOut (seat : Seat) : Conduct :=
  match seat with
  | .companion => conduct .companion idle
  | .main => conduct .main (conduct .companion idle)

/-! ## Looking -/

/-- What is known about a coordinator now. -/
def snapshot? (s : Session) (seat : Seat) : Option Coordinator.Snapshot :=
  (s.post? seat).map fun p => (s.informed p.coordinator).snapshot

def hasCrashed (s : Session) : Bool := (s.informed s.main.coordinator).hasCrashed

end Session

end Supervisor
