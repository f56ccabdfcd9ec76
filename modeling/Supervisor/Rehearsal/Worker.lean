import Supervisor.Rehearsal.Basic
/-!
# Workers

The worker of a coordinator takes turns with its collaborators: it asks for something, and when that
call has ended it goes on. A call that takes no time ends before anything else can run.
-/
namespace Supervisor

/-- What a caller of an operation is told. -/
def Answer.toJson : Answer → Json
  | .done => .null
  | .flag b => .bool b

/-- What a call brings, and after how long; nothing if it never ends. -/
def Course.promise? (c : Course Promise) : Option (Nat × Promise) :=
  match c.ending with
  | .value p => some (c.delay, p)
  | .fault f => some (c.delay, .reply (.fault f))
  | .panic p => some (c.delay, .reply (.panicked p.message))
  | .never => none

/-- An operation has ended; is it the one that this visit waits for? -/
def Visit.hear (v : Visit) (s : Seat) (t : Ticket) (result : Except Fault Answer) : Visit :=
  match v.purpose with
  | .operation u =>
    if v.seat = s ∧ u = t then { v with stay := .left (.result (result.map Answer.toJson)) } else v
  | _ => v

namespace Rehearsal

/-- Puts an operation into the queue of a coordinator, and wakes its worker if it has nothing to do. -/
def submit (r : Rehearsal) (s : Seat) (op : Operation) : Option Ticket × Rehearsal :=
  match r.player? s with
  | none => (none, r)
  | some p =>
    let (ticket, coordinator) := p.coordinator.submit op
    let r := r.setPlayer s { p with coordinator }
    (ticket, if coordinator.stage.isNone then r.wake (.worker s) else r)

/-- What takes no time is there at once; for the rest an alarm is set. -/
def arrange (r : Rehearsal) (s : Seat) : Option (Nat × Promise) → Rehearsal × Option Promise
  | none => (r, none)
  | some (0, p) => (r, some p)
  | some (d, p) => (r.setAlarm (r.clock + d) (.promise s p), none)

/-- Lets the companion carry out an operation, whose result the worker waits for. -/
def delegate (r : Rehearsal) (s : Seat) (op : Operation) : Rehearsal × Option Promise :=
  match r.submit .companion op with
  | (some t, r) => (r.modifyPlayer s fun p => { p with errand := some t }, none)
  | (none, r) => (r, some (.reply (.fault .dispatcherClosed)))

/-- Makes a call; what it brings, if it is there at once. -/
def perform (r : Rehearsal) (s : Seat) (p : Player) : Call → Rehearsal × Option Promise
  | .stopServer id =>
    ((r.note s (.stop id)).serverDown s id).arrange s
      ((p.scriptOf id).stop.map fun _ => Promise.noted (.stopped id) .done).promise?
  | .clearCaches e =>
    match p.tool with
    | none => (r, some (.reply .done))
    | some t =>
      (r.note s (.clear e.collectPrefix)).arrange s
        (t.clear.map fun _ => Promise.noted .cleared .done).promise?
  | .prepareEnvironment e =>
    match p.tool with
    | none => (r, some (.reply (.environment [])))
    | some t =>
      (r.note s (.prepare e.space)).arrange s
        (t.prepare.map fun env => Promise.noted .prepared (.environment env)).promise?
  | .launch spec =>
    ((r.note s (.launch spec.settings.command)).setPlayer s
        { p with launches := p.launches + 1, spec := some spec }).arrange s
      (p.nextScript.launch.map fun _ => Promise.launched p.nextScript).promise?
  | .awaitReady id limit =>
    (r.note s (.awaitReady id)).arrange s (withinLimit (.reply .overdue) (limit.map Duration.millis)
      ((p.scriptOf id).ready.map fun _ => Promise.noted (.ready id) .done).promise?)
  | .prepareDependent _ =>
    match p.dependent with
    | .nobody => (r, some (.reply (.flag false)))
    | .scripted d =>
      (r.note s .prepareDependent).arrange s
        (d.prepare.map fun b => Promise.reply (.flag b)).promise?
    | .companion => r.delegate s .yieldCaches
  | .finishDependent _ =>
    match p.dependent with
    | .nobody => (r, some (.reply .done))
    | .scripted d =>
      (r.note s .finishDependent).arrange s (d.finish.map fun _ => Promise.reply .done).promise?
    | .companion => r.delegate s (.restart .linked)
  | .removeDirectory path =>
    (({ r with files := (r.files.removeDirectory path).toOption.getD r.files }).setAlarm r.clock
      (.promise s (.reply .done)), none)

/-- A call has ended. -/
def fulfil (r : Rehearsal) (s : Seat) : Promise → Rehearsal × Reply
  | .reply x => (r, x)
  | .noted a x => (r.note s a, x)
  | .launched script =>
    let id := "ls-" ++ toString (r.issued + 1)
    let r := { r with issued := r.issued + 1 }
    ((r.note s (.launched id)).modifyPlayer s fun p => { p with cast := (id, script) :: p.cast },
      .server id)

/-- Everyone who waits for a change of this coordinator looks again. -/
def wakeWatchers (r : Rehearsal) (s : Seat) : Rehearsal :=
  (r.visits.zipIdx.filter fun (v, _) => v.watching && v.seat == s).foldl
    (fun r (_, n) => r.wake (.visit n)) r

/-- Tells the callers of an operation how it ended. -/
def tell (r : Rehearsal) (s : Seat) (t : Ticket) (result : Except Fault Answer) : Rehearsal :=
  let r := { r with visits := r.visits.map fun v => v.hear s t result }
  if s = .companion ∧ r.main.errand = some t then
    { r with main := { r.main with
        errand := none, incoming := some (.reply (Reply.ofResult result)) } }.wake (.worker .main)
  else r

/-- What a turn has brought; the call that it ends with, if it ends with one. -/
def absorb (s : Seat) : Rehearsal → List Output → Rehearsal × Option Call
  | r, [] => (r, none)
  | r, .call c :: _ => (r, some c)
  | r, .started _ _ :: rest => absorb s r rest
  | r, .notice n :: rest => absorb s (r.publish n) rest
  | r, .phaseSet _ :: rest => absorb s (r.wakeWatchers s) rest
  | r, .finished t result :: rest => absorb s (r.tell s t result) rest

/-- Takes turns as long as calls end at once, up to `n` of them. -/
def takeTurns (s : Seat) : Nat → Rehearsal → Coordinator.Turn → Rehearsal
  | 0, r, _ => r
  | n + 1, r, t =>
    let r := r.modifyPlayer s fun p => { p with coordinator := t.state }
    match absorb s r t.outputs with
    | (r, none) => r
    | (r, some c) =>
      match r.player? s with
      | none => r
      | some p =>
        match r.perform s p c with
        | (r, none) => r
        | (r, some promise) =>
          let (r, reply) := r.fulfil s promise
          match r.player? s with
          | none => r
          | some p => takeTurns s n r (p.coordinator.reply r.clock reply)

/-- More calls than the operations can make that a coordinator holds. -/
def turnBound (p : Player) : Nat := 10 * (p.coordinator.queue.held + 1)

def runWorker (r : Rehearsal) (s : Seat) : Rehearsal :=
  match r.player? s with
  | none => r
  | some p =>
    match p.incoming with
    | none => r.takeTurns s (turnBound p) (p.coordinator.wake r.clock)
    | some promise =>
      let r := r.setPlayer s { p with incoming := none }
      let (r, reply) := r.fulfil s promise
      r.takeTurns s (turnBound p) (p.coordinator.reply r.clock reply)

end Rehearsal

end Supervisor
