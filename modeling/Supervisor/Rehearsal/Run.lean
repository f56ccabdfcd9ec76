import Supervisor.Rehearsal.Visit
/-!
# Runs

The order in which things happen: what can run, runs in the order in which it was woken; then the
next alarm rings, and the alarms of one moment ring in the order in which they were set.
-/
namespace Supervisor.Rehearsal

def runTask (r : Rehearsal) : Task → Rehearsal
  | .worker s => r.runWorker s
  | .visit n => r.runVisit n

def deliver (r : Rehearsal) : Delivery → Rehearsal
  | .promise s p => (r.modifyPlayer s fun q => { q with incoming := some p }).wake (.worker s)
  | .sequel n x => (r.modifyVisit n fun v => { v with incoming := some x }).wake (.visit n)
  | .deadline n => r.wake (.visit n)

/-- The clock moves to `time`, and the alarms ring that were set for then. -/
def ring (r : Rehearsal) (time : Nat) : Rehearsal :=
  let (due, later) := r.alarms.partition fun a => a.time ≤ time
  due.foldl (fun r a => r.deliver a.delivery) { r with clock := max r.clock time, alarms := later }

/-- When the next alarm rings. -/
def nextAlarm? (r : Rehearsal) : Option Nat :=
  r.alarms.foldl (fun m a =>
    match m with
    | some t => some (min t a.time)
    | none => some a.time) none

def heldBy (s : Seat) (r : Rehearsal) : Nat :=
  match r.player? s with
  | some p => p.coordinator.queue.held
  | none => 0

/-- More tasks than can run before all operations have ended. -/
def effort (r : Rehearsal) : Nat :=
  16 * (1 + 3 * r.heldBy .main + r.heldBy .companion) * (2 + r.visits.length)

/-- Runs up to `n` tasks, and rings the alarms of this moment. -/
def runTasks : Nat → Rehearsal → Rehearsal
  | 0, r => r
  | n + 1, r =>
    match r.runnable with
    | t :: rest => runTasks n (({ r with runnable := rest }).runTask t)
    | [] =>
      match r.nextAlarm? with
      | some t => if t ≤ r.clock then runTasks n (r.ring r.clock) else r
      | none => r

/-- Everything happens that can happen without the clock moving. -/
def settle (r : Rehearsal) : Rehearsal := r.runTasks r.effort

/-- Lets up to `n` alarms ring, until `done` or the limit is reached. -/
def ringUntil (done : Rehearsal → Bool) (limit : Nat) : Nat → Rehearsal → Rehearsal
  | 0, r => r
  | n + 1, r =>
    if done r then r
    else match r.nextAlarm? with
      | some t =>
        if t ≤ limit then ringUntil done limit n (r.ring t).settle
        else { r with clock := max r.clock limit }
      | none => { r with clock := max r.clock limit }

def verdict? (r : Rehearsal) (n : Nat) : Option Verdict := (r.visits[n]?).bind Visit.verdict

def sleep (r : Rehearsal) (d : Nat) : Rehearsal :=
  let r := r.settle
  r.ringUntil (fun _ => false) (r.clock + d) r.effort

/-- Waits for the verdict on a visit, but no longer than `patience`. -/
def await (r : Rehearsal) (n : Nat) (patience : Nat) : Option Verdict × Rehearsal :=
  let r := r.settle
  let r := r.ringUntil (fun r => (r.verdict? n).isSome) (r.clock + patience) r.effort
  (r.verdict? n, r)

end Supervisor.Rehearsal
