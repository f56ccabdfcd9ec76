import Supervisor.Rehearsal.Worker
/-!
# Visits

What callers do themselves: they want an operation to be carried out, or they look at a coordinator until
it admits them, and then they use its server.
-/
namespace Supervisor

/-- What someone can want of a coordinator. -/
inductive Wish
  /-- The operation is put into the queue when the wish is made. -/
  | trigger (op : Operation)
  /-- What a main coordinator wants of its dependent. The operation is put into the queue when someone
  waits for it. -/
  | favour (op : Operation)
  | visit (purpose : Purpose) (wait : Duration)

/-- What a call brings to its caller, and after how long; nothing if it never ends. -/
def Course.sequel? (c : Course Sequel) : Option (Nat × Sequel) :=
  match c.ending with
  | .value x => some (c.delay, x)
  | .fault f => some (c.delay, .verdict (.ofFault f))
  | .panic p => some (c.delay, .verdict (.panicked p))
  | .never => none

/-- The command that a visit carries out, if it carries out one. -/
def Visit.command? (v : Visit) : Option String :=
  match v.purpose with
  | .forward name _ _ | .execute name _ => some name
  | _ => none

def Visit.guest (v : Visit) : Guest where
  command := v.command?
  wait := v.wait
  deadline := v.deadline

def Alarm.isDeadlineOf (a : Alarm) (n : Nat) : Bool :=
  match a.delivery with
  | .deadline m => m == n
  | _ => false

namespace Rehearsal

def give (r : Rehearsal) (n : Nat) (v : Verdict) : Rehearsal :=
  r.modifyVisit n fun x => { x with stay := .left v, incoming := none }

def isServerRunning (r : Rehearsal) (s : Seat) (id : ServerId) : Bool :=
  match r.player? s with
  | some p => p.coordinator.isRunning id
  | none => false

/-- A call of a visit has ended. -/
def conclude (r : Rehearsal) (n : Nat) (s : Seat) : Sequel → Rehearsal
  | .verdict v => r.give n v
  | .noted a v => (r.note s a).give n (.result (.ok v))
  | .worked id v =>
    r.give n (.result (.ok (.array [.string id, .bool (r.isServerRunning s id), v])))

def engage (r : Rehearsal) (n : Nat) (s : Seat) : Option (Nat × Sequel) → Rehearsal
  | none => r
  | some (0, x) => r.conclude n s x
  | some (d, x) => r.setAlarm (r.clock + d) (.sequel n x)

/-- What the scripted servers answer to a request. -/
def requestAnswer (id : ServerId) (method : String) (params : Option Json) : Json :=
  .object [("server", .string id), ("method", .string method), ("params", params.getD .null)]

/-- Uses the server to which a visit was admitted. -/
def useServer (r : Rehearsal) (n : Nat) (v : Visit) (id : ServerId) : Rehearsal :=
  match r.player? v.seat, v.purpose with
  | some p, .forward _ method params =>
    (r.note v.seat (.request id method)).engage n v.seat
      ((p.scriptOf id).request.map fun _ =>
        Sequel.verdict (.result (.ok (requestAnswer id method params)))).sequel?
  | _, .execute _ job => r.engage n v.seat (job.map (Sequel.worked id)).sequel?
  | _, _ => r.give n (.result (.ok (.string id)))

/-- Stops the server that a coordinator holds, without asking the coordinator. -/
def stopHandle (r : Rehearsal) (n : Nat) (s : Seat) : Rehearsal :=
  match r.player? s with
  | none => r
  | some p =>
    match p.coordinator.handle with
    | none => r.give n (.result (.ok (.string "no handle")))
    | some id =>
      ((r.note s (.stop id)).serverDown s id).engage n s
        ((p.scriptOf id).stop.map fun _ => Sequel.noted (.stopped id) (.string "stopped")).sequel?

/-- One look at the coordinator. -/
def look (r : Rehearsal) (n : Nat) (v : Visit) : Rehearsal :=
  match r.player? v.seat with
  | none => r
  | some p =>
    let (stay, notices) := v.guest.step Verdict.ofFault p.coordinator r.clock v.stay
    let r := notices.foldl publish { r with alarms := r.alarms.filter fun a => !a.isDeadlineOf n }
    let r := r.modifyVisit n fun v => { v with stay, watching := stay.isWaiting }
    match stay with
    | .waiting => r.setAlarm v.deadline (.deadline n)
    | .working id => r.useServer n v id
    | .left _ => r

def runVisit (r : Rehearsal) (n : Nat) : Rehearsal :=
  match r.visits[n]? with
  | none => r
  | some v =>
    match v.stay, v.incoming, v.purpose with
    | .left _, _, _ => r
    | _, some x, _ => r.conclude n v.seat x
    | .working _, none, _ => r
    | .waiting, none, .operation _ => r
    | .waiting, none, .stopHandle => r.stopHandle n v.seat
    | .waiting, none, _ => r.look n v

/-- Someone comes to a coordinator; the number of the visit. The clock goes on for ever, so any deadline
can be told. -/
def visit (r : Rehearsal) (s : Seat) (purpose : Purpose) (wait : Duration) : Nat × Rehearsal :=
  let n := r.visits.length
  let v : Visit := { seat := s, purpose, wait, deadline := r.clock + wait.ticks }
  (n, Rehearsal.wake { r with visits := r.visits ++ [v] } (.visit n))

/-- Someone wants an operation to be carried out; the number of the visit. -/
def request (r : Rehearsal) (s : Seat) (op : Operation) : Nat × Rehearsal :=
  match r.submit s op with
  | (some t, r) =>
    (r.visits.length, { r with visits := r.visits ++ [{ seat := s, purpose := .operation t }] })
  | (none, r) =>
    (r.visits.length, { r with visits := r.visits ++
      [{ seat := s, purpose := .serverHandle,
         stay := .left (.ofFault .dispatcherClosed) }] })

/-- A wish is made, and whoever makes it waits; the number of the visit. -/
def ask (r : Rehearsal) (s : Seat) : Wish → Nat × Rehearsal
  | .trigger op | .favour op => r.request s op
  | .visit purpose wait => r.visit s purpose wait

/-- A wish is made, and whoever makes it leaves at once. Only a trigger is in the queue by then. -/
def drop (r : Rehearsal) (s : Seat) : Wish → Rehearsal
  | .trigger op => (r.submit s op).2
  | .favour _ | .visit _ _ => r

end Rehearsal

end Supervisor
