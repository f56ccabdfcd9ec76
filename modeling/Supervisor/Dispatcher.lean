/-!
# Dispatchers

A queue of jobs of which one runs at a time, in the order in which they were accepted. Each job gets
a ticket, by which its caller knows the result. A closed dispatcher accepts nothing, and the jobs it
held stay pending for good.
-/
namespace Supervisor

abbrev Ticket := Nat

structure Dispatcher (Job : Type) where
  waiting : List (Ticket × Job) := []
  running : Option Ticket := none
  accepted : Nat := 0
  /-- Counts up when a job is accepted, and down when one is done. -/
  pending : Nat := 0
  completed : Nat := 0
  closed : Bool := false
deriving Repr, Inhabited

namespace Dispatcher
variable {Job : Type}

def submit (d : Dispatcher Job) (job : Job) : Option Ticket × Dispatcher Job :=
  if d.closed then (none, d)
  else (some d.accepted,
    { d with
      waiting := d.waiting ++ [(d.accepted, job)]
      accepted := d.accepted + 1
      pending := d.pending + 1 })

/-- Starts the oldest waiting job, if none is running. -/
def start? (d : Dispatcher Job) : Option (Job × Dispatcher Job) :=
  match d.running, d.waiting with
  | none, (ticket, job) :: rest => some (job, { d with waiting := rest, running := some ticket })
  | _, _ => none

/-- The running job is done. -/
def release (d : Dispatcher Job) : Dispatcher Job :=
  match d.running with
  | some _ => { d with running := none, pending := d.pending - 1, completed := d.completed + 1 }
  | none => d

/-- Drops what runs and what waits. -/
def close (d : Dispatcher Job) : Dispatcher Job :=
  { d with waiting := [], running := none, closed := true }

/-- How many jobs the dispatcher holds. -/
def held (d : Dispatcher Job) : Nat := d.waiting.length + if d.running.isSome then 1 else 0

@[simp] theorem pending_submit (d : Dispatcher Job) (job : Job) :
    (d.submit job).2.pending = if d.closed then d.pending else d.pending + 1 := by
  simp only [submit]
  split <;> rfl

@[simp] theorem completed_submit (d : Dispatcher Job) (job : Job) :
    (d.submit job).2.completed = d.completed := by
  simp only [submit]
  split <;> rfl

@[simp] theorem running_submit (d : Dispatcher Job) (job : Job) :
    (d.submit job).2.running = d.running := by
  simp only [submit]
  split <;> rfl

@[simp] theorem running_release (d : Dispatcher Job) : d.release.running = none := by
  cases h : d.running <;> simp [release, h]

@[simp] theorem waiting_release (d : Dispatcher Job) : d.release.waiting = d.waiting := by
  cases h : d.running <;> simp [release, h]

@[simp] theorem accepted_release (d : Dispatcher Job) : d.release.accepted = d.accepted := by
  cases h : d.running <;> simp [release, h]

@[simp] theorem closed_release (d : Dispatcher Job) : d.release.closed = d.closed := by
  cases h : d.running <;> simp [release, h]

/-- A job is only started when none is running. -/
theorem start?_eq_some {d e : Dispatcher Job} {job : Job} (h : d.start? = some (job, e)) :
    d.running = none ∧ ∃ ticket rest, d.waiting = (ticket, job) :: rest ∧
      e = { d with waiting := rest, running := some ticket } := by
  unfold start? at h
  split at h
  · rename_i ticket job' rest hr hw
    simp only [Option.some.injEq, Prod.mk.injEq] at h
    obtain ⟨rfl, rfl⟩ := h
    exact ⟨hr, ticket, rest, hw, rfl⟩
  · simp at h

theorem idle_of_start? {d e : Dispatcher Job} {job : Job} (h : d.start? = some (job, e)) :
    d.running = none := (start?_eq_some h).1

theorem running_start? {d e : Dispatcher Job} {job : Job} (h : d.start? = some (job, e)) :
    e.running.isSome := by
  obtain ⟨-, ticket, rest, -, rfl⟩ := start?_eq_some h
  rfl

theorem waiting_start? {d e : Dispatcher Job} {job : Job} (h : d.start? = some (job, e)) :
    d.waiting = (e.running.getD 0, job) :: e.waiting := by
  obtain ⟨-, ticket, rest, hw, rfl⟩ := start?_eq_some h
  exact hw

theorem accepted_start? {d e : Dispatcher Job} {job : Job} (h : d.start? = some (job, e)) :
    e.accepted = d.accepted := by
  obtain ⟨-, ticket, rest, -, rfl⟩ := start?_eq_some h
  rfl

theorem closed_start? {d e : Dispatcher Job} {job : Job} (h : d.start? = some (job, e)) :
    e.closed = d.closed := by
  obtain ⟨-, ticket, rest, -, rfl⟩ := start?_eq_some h
  rfl

theorem waiting_of_start?_none {d : Dispatcher Job} (hr : d.running = none)
    (h : d.start? = none) : d.waiting = [] := by
  cases hw : d.waiting with
  | nil => rfl
  | cons next rest => simp [start?, hr, hw] at h

theorem start?_of_waiting_nil {d : Dispatcher Job} (h : d.waiting = []) : d.start? = none := by
  unfold start?
  split
  · simp_all
  · rfl

theorem held_start? {d e : Dispatcher Job} {job : Job} (h : d.start? = some (job, e)) :
    e.held = d.held := by
  obtain ⟨hr, ticket, rest, hw, rfl⟩ := start?_eq_some h
  simp [held, hr, hw]

end Dispatcher

end Supervisor
