import Supervisor.Course
import Supervisor.Dispatcher
import Supervisor.Text.Quoted
/-!
# Dispatchers on a clock

A dispatcher whose jobs have known courses, together with a clock of milliseconds. The clock moves
from one event to the next: the running job ends, and at the same moment the next one starts.
-/
namespace Supervisor

/-- What a dispatcher on a clock writes down. -/
inductive Mark
  | started (t : Ticket)
  | returned (t : Ticket)
deriving DecidableEq, Repr

structure TimedDispatcher (α : Type) where
  clock : Nat := 0
  queue : Dispatcher (Course α) := {}
  /-- The course of the running job, and when the job was started. -/
  current : Option (Course α × Nat) := none
  results : List (Ticket × Except Fault α) := []
  /-- Who does not wait any more. -/
  gone : List Ticket := []
  /-- What happened and when, the latest first. -/
  marks : List (Nat × Mark) := []

namespace TimedDispatcher
variable {α : Type}

def mark (t : TimedDispatcher α) (m : Mark) : TimedDispatcher α :=
  { t with marks := (t.clock, m) :: t.marks }

@[simp] theorem clock_mark (t : TimedDispatcher α) (m : Mark) : (t.mark m).clock = t.clock := rfl
@[simp] theorem queue_mark (t : TimedDispatcher α) (m : Mark) : (t.mark m).queue = t.queue := rfl
@[simp] theorem current_mark (t : TimedDispatcher α) (m : Mark) : (t.mark m).current = t.current := rfl
@[simp] theorem gone_mark (t : TimedDispatcher α) (m : Mark) : (t.mark m).gone = t.gone := rfl
@[simp] theorem results_mark (t : TimedDispatcher α) (m : Mark) : (t.mark m).results = t.results := rfl
@[simp] theorem marks_mark (t : TimedDispatcher α) (m : Mark) :
    (t.mark m).marks = (t.clock, m) :: t.marks := rfl

/-- The caller of this job does not care for its result any more; the job stays where it is. -/
def abandon (t : TimedDispatcher α) (ticket : Ticket) : TimedDispatcher α :=
  { t with gone := ticket :: t.gone }

/-- When the running job ends. -/
def due? (t : TimedDispatcher α) : Option Nat := t.current.bind fun (c, since) => c.due? since

/-- The running job ends, and its caller is told how, if it still waits. A job that panics does not
return. -/
def endCurrent (t : TimedDispatcher α) (c : Course α) (ticket : Ticket) : TimedDispatcher α :=
  let told := if ticket ∈ t.gone then [] else (c.ending.result?.map fun r => (ticket, r)).toList
  let t := { t with queue := t.queue.release, current := none, results := told ++ t.results }
  if c.ending.isPanic then t else t.mark (.returned ticket)

@[simp] theorem clock_endCurrent (t : TimedDispatcher α) (c : Course α) (ticket : Ticket) :
    (t.endCurrent c ticket).clock = t.clock := by
  simp only [endCurrent]
  split <;> rfl

@[simp] theorem queue_endCurrent (t : TimedDispatcher α) (c : Course α) (ticket : Ticket) :
    (t.endCurrent c ticket).queue = t.queue.release := by
  simp only [endCurrent]
  split <;> rfl

@[simp] theorem current_endCurrent (t : TimedDispatcher α) (c : Course α) (ticket : Ticket) :
    (t.endCurrent c ticket).current = none := by
  simp only [endCurrent]
  split <;> rfl

@[simp] theorem gone_endCurrent (t : TimedDispatcher α) (c : Course α) (ticket : Ticket) :
    (t.endCurrent c ticket).gone = t.gone := by
  simp only [endCurrent]
  split <;> rfl

@[simp] theorem results_endCurrent (t : TimedDispatcher α) (c : Course α) (ticket : Ticket) :
    (t.endCurrent c ticket).results =
      (if ticket ∈ t.gone then [] else (c.ending.result?.map fun r => (ticket, r)).toList) ++
        t.results := by
  simp only [endCurrent]
  split <;> rfl

@[simp] theorem marks_endCurrent (t : TimedDispatcher α) (c : Course α) (ticket : Ticket) :
    (t.endCurrent c ticket).marks =
      (if c.ending.isPanic then [] else [(t.clock, .returned ticket)]) ++ t.marks := by
  simp only [endCurrent]
  split <;> rfl

/-- The next event that is due by `limit`, if there is one. -/
def step? (limit : Nat) (t : TimedDispatcher α) : Option (TimedDispatcher α) :=
  match t.queue.running, t.current with
  | some ticket, some (c, since) =>
    match c.due? since with
    | some d => if d ≤ limit then some ({ t with clock := max t.clock d }.endCurrent c ticket) else none
    | none => none
  | _, _ =>
    match t.queue.start? with
    | some (c, queue) =>
      some (({ t with queue, current := some (c, t.clock) } : TimedDispatcher α).mark
        (.started (queue.running.getD 0)))
    | none => none

/-- Up to `n` events that are due by `limit`. -/
def steps (limit : Nat) : Nat → TimedDispatcher α → TimedDispatcher α
  | 0, t => t
  | n + 1, t =>
    match t.step? limit with
    | some t => steps limit n t
    | none => t

/-- No more events can follow: each job that is held starts and ends at most once. -/
def bound (t : TimedDispatcher α) : Nat := 2 * t.queue.held

/-- Lets the clock run to `limit`. -/
def runTo (t : TimedDispatcher α) (limit : Nat) : TimedDispatcher α :=
  { t.steps limit t.bound with clock := max t.clock limit }

def sleep (t : TimedDispatcher α) (d : Nat) : TimedDispatcher α := t.runTo (t.clock + d)

/-- Puts a job into the queue; it is started at once if nothing else runs. -/
def submit (t : TimedDispatcher α) (c : Course α) : Option Ticket × TimedDispatcher α :=
  let (ticket, queue) := t.queue.submit c
  (ticket, { t with queue }.runTo t.clock)

/-- Destroys what runs and what waits. -/
def close (t : TimedDispatcher α) : TimedDispatcher α :=
  { t with queue := t.queue.close, current := none }

/-- What the caller of a job can know at this moment. -/
def result? (t : TimedDispatcher α) (ticket : Ticket) : Option (Except Fault α) :=
  match t.results.lookup ticket with
  | some r => some r
  | none => if t.queue.closed then some (.error .dispatcherClosed) else none

/-- Lets the clock run from one moment at which a job ends to the next, up to `n` of them, until a
result is there or the limit is reached. -/
def awaitSteps (ticket : Ticket) (limit : Nat) : Nat → TimedDispatcher α →
    Option (Except Fault α) × TimedDispatcher α
  | 0, t =>
    match t.result? ticket with
    | some r => (some r, t)
    | none => (none, t.runTo limit)
  | n + 1, t =>
    match t.result? ticket, t.due? with
    | some r, _ => (some r, t)
    | none, some d => if d ≤ limit then awaitSteps ticket limit n (t.runTo d) else (none, t.runTo limit)
    | none, none => (none, t.runTo limit)

/-- Waits for the result of a job, but no longer than `patience`. -/
def await (t : TimedDispatcher α) (ticket : Ticket) (patience : Nat) :
    Option (Except Fault α) × TimedDispatcher α :=
  awaitSteps ticket (t.clock + patience) t.queue.held.succ t

/-- A line that describes a dispatcher of this name. -/
def summary (t : TimedDispatcher α) (name : String) : String :=
  "Dispatcher \x7b name: " ++ Text.quoted name ++ ", pending: " ++ toString t.queue.pending ++
    ", completed: " ++ toString t.queue.completed ++ " \x7d"

end TimedDispatcher

end Supervisor
