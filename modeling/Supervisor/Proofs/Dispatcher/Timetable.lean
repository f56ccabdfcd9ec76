import Supervisor.Dispatcher.Timed
/-!
# The timetable of a dispatcher

When a dispatcher is to start each job and when it is to be done with it follows from when the jobs were
submitted and how long they take.
-/
namespace Supervisor

namespace Course
variable {α : Type}

def ends (c : Course α) : Bool :=
  match c.ending with
  | .never => false
  | _ => true

/-- How long the call runs; one that panics before it waits takes no time. -/
def span (c : Course α) : Nat :=
  match c.ending with
  | .panic _ => if c.early then 0 else c.delay
  | _ => c.delay

theorem due?_eq_some {c : Course α} (h : c.ends = true) (now : Nat) :
    c.due? now = some (now + c.span) := by
  unfold ends at h
  unfold due? span
  cases he : c.ending with
  | never => simp [he] at h
  | panic p => cases c.early <;> rfl
  | value | fault => rfl

end Course

namespace TimedDispatcher
variable {α : Type}

/-! ## Timetables -/

/-- A job, and when it was submitted. -/
structure Arrival (α : Type) where
  time : Nat
  course : Course α

/-- The time that a job gets. -/
structure Slot (α : Type) where
  ticket : Ticket
  course : Course α
  since : Nat
  till : Nat

/-- What is written down about a job. -/
def Slot.marks (s : Slot α) : List (Nat × Mark) :=
  (s.since, .started s.ticket) ::
    if s.course.ending.isPanic then [] else [(s.till, .returned s.ticket)]

/-- The slot of a job when the one before it ends at `free`. -/
def Arrival.slot (a : Arrival α) (free : Nat) (ticket : Ticket) : Slot α where
  ticket
  course := a.course
  since := max a.time free
  till := max a.time free + a.course.span

def slots (free : Nat) (ticket : Ticket) : List (Arrival α) → List (Slot α)
  | [] => []
  | a :: rest => a.slot free ticket :: slots (a.slot free ticket).till (ticket + 1) rest

def timetable (arrivals : List (Arrival α)) : List (Slot α) := slots 0 0 arrivals

/-- When the last of these jobs has ended. -/
def finish (free : Nat) (arrivals : List (Arrival α)) : Nat :=
  arrivals.foldl (fun free a => max a.time free + a.course.span) free

section
variable {free : Nat} {ticket : Ticket} {arrivals : List (Arrival α)}

theorem slots_append (past future : List (Arrival α)) :
    slots free ticket (past ++ future) =
      slots free ticket past ++ slots (finish free past) (ticket + past.length) future := by
  induction past generalizing free ticket with
  | nil => rfl
  | cons a past ih =>
    simp only [List.cons_append, slots, ih, List.length_cons]
    rw [Nat.add_right_comm, Nat.add_assoc]
    rfl

theorem timetable_append (past : List (Arrival α)) (a : Arrival α) (future : List (Arrival α)) :
    timetable (past ++ a :: future) =
      timetable past ++ a.slot (finish 0 past) past.length ::
        slots (a.slot (finish 0 past) past.length).till (past.length + 1) future := by
  simp only [timetable, slots_append, Nat.zero_add]
  rfl

theorem finish_cons (free : Nat) (ticket : Ticket) (a : Arrival α) (rest : List (Arrival α)) :
    finish free (a :: rest) = finish (a.slot free ticket).till rest := rfl

theorem finish_snoc (past : List (Arrival α)) (a : Arrival α) :
    finish free (past ++ [a]) = (a.slot (finish free past) ticket).till := by
  simp [finish, Arrival.slot]

theorem Arrival.le_since_slot (a : Arrival α) (free : Nat) (ticket : Ticket) :
    free ≤ (a.slot free ticket).since := Nat.le_max_right _ _

theorem Arrival.since_le_till_slot (a : Arrival α) (free : Nat) (ticket : Ticket) :
    (a.slot free ticket).since ≤ (a.slot free ticket).till := Nat.le_add_right _ _

theorem le_finish (free : Nat) (arrivals : List (Arrival α)) : free ≤ finish free arrivals := by
  induction arrivals generalizing free with
  | nil => exact Nat.le_refl _
  | cons a rest ih =>
    have hs := a.le_since_slot free 0
    have ht := a.since_le_till_slot free 0
    have h := ih (a.slot free 0).till
    rw [finish_cons free 0]
    omega

/-- No slot lies outside the time from which the dispatcher is free to its finish. -/
theorem slot_bounds {s : Slot α} (hs : s ∈ slots free ticket arrivals) :
    free ≤ s.since ∧ s.since ≤ s.till ∧ s.till ≤ finish free arrivals := by
  induction arrivals generalizing free ticket with
  | nil => simp [slots] at hs
  | cons a rest ih =>
    have hs₁ := a.le_since_slot free ticket
    have hs₂ := a.since_le_till_slot free ticket
    rw [finish_cons free ticket]
    rcases List.mem_cons.mp hs with rfl | hs
    · have hf := le_finish (a.slot free ticket).till rest
      omega
    · obtain ⟨hfree, hspan, htill⟩ := ih hs
      omega

theorem map_ticket_slots :
    (slots free ticket arrivals).map Slot.ticket = List.range' ticket arrivals.length := by
  induction arrivals generalizing free ticket with
  | nil => rfl
  | cons a rest ih =>
    simp only [slots, List.map_cons, ih, List.length_cons, List.range'_succ]
    rfl

theorem ticket_bounds {s : Slot α} (hs : s ∈ slots free ticket arrivals) :
    ticket ≤ s.ticket ∧ s.ticket < ticket + arrivals.length := by
  have hm : s.ticket ∈ (slots free ticket arrivals).map Slot.ticket := List.mem_map_of_mem hs
  rw [map_ticket_slots] at hm
  exact List.mem_range'_1.mp hm

/-- What is written down about a job is written down in its slot. -/
theorem Slot.time_of_mem_marks {s : Slot α} {m : Nat × Mark} (hm : m ∈ s.marks) :
    m.1 = s.since ∨ m.1 = s.till := by
  simp only [Slot.marks, List.mem_cons] at hm
  rcases hm with rfl | hm
  · exact .inl rfl
  · split at hm
    · simp at hm
    · simp only [List.mem_singleton] at hm
      exact .inr (by rw [hm])

theorem since_le_of_mem_slots {a : Arrival α} {s : Slot α} (hs : s ∈ slots free ticket (a :: arrivals)) :
    (a.slot free ticket).since ≤ s.since := by
  rcases List.mem_cons.mp hs with rfl | hs
  · exact Nat.le_refl _
  · exact Nat.le_trans (a.since_le_till_slot free ticket) (slot_bounds hs).1

theorem since_le_of_mem_marks {a : Arrival α} {m : Nat × Mark}
    (hm : m ∈ (slots free ticket (a :: arrivals)).flatMap Slot.marks) :
    (a.slot free ticket).since ≤ m.1 := by
  obtain ⟨s, hs, hm⟩ := List.mem_flatMap.mp hm
  have hfirst := since_le_of_mem_slots hs
  have hb := slot_bounds hs
  rcases Slot.time_of_mem_marks hm with ht | ht <;> omega

theorem time_of_mem_marks {m : Nat × Mark}
    (hm : m ∈ (slots free ticket arrivals).flatMap Slot.marks) :
    free ≤ m.1 ∧ m.1 ≤ finish free arrivals := by
  obtain ⟨s, hs, hm⟩ := List.mem_flatMap.mp hm
  have hb := slot_bounds hs
  rcases Slot.time_of_mem_marks hm with ht | ht <;> omega

/-- Each job has one slot, in the order in which the jobs came. It begins when the job comes or when
the job before it ends, whichever is later, and lasts as long as the job. So no two slots overlap. -/
structure InTurn (arrivals : List (Arrival α)) (table : List (Slot α)) : Prop where
  tickets : table.map Slot.ticket = List.range arrivals.length
  courses : table.map Slot.course = arrivals.map Arrival.course
  first : ∀ a s, arrivals[0]? = some a → table[0]? = some s → s.since = a.time
  next : ∀ i a s s', arrivals[i + 1]? = some a → table[i]? = some s → table[i + 1]? = some s' →
    s'.since = max a.time s.till
  span : ∀ s ∈ table, s.till = s.since + s.course.span
  apart : table.Pairwise fun s s' => s.till ≤ s'.since

theorem map_course_slots :
    (slots free ticket arrivals).map Slot.course = arrivals.map Arrival.course := by
  induction arrivals generalizing free ticket with
  | nil => rfl
  | cons a rest ih =>
    simp only [slots, List.map_cons, ih]
    rfl

theorem since_slots_zero {a : Arrival α} {s : Slot α} (ha : arrivals[0]? = some a)
    (hs : (slots free ticket arrivals)[0]? = some s) : s.since = max a.time free := by
  cases arrivals with
  | nil => simp at ha
  | cons b rest =>
    simp only [List.getElem?_cons_zero, Option.some.injEq, slots] at ha hs
    subst ha hs
    rfl

theorem since_slots_succ {i : Nat} {a : Arrival α} {s s' : Slot α} (ha : arrivals[i + 1]? = some a)
    (hs : (slots free ticket arrivals)[i]? = some s)
    (hs' : (slots free ticket arrivals)[i + 1]? = some s') : s'.since = max a.time s.till := by
  induction arrivals generalizing free ticket i with
  | nil => simp at ha
  | cons b rest ih =>
    simp only [slots, List.getElem?_cons_succ] at ha hs'
    cases i with
    | zero =>
      simp only [slots, List.getElem?_cons_zero, Option.some.injEq] at hs
      subst hs
      exact since_slots_zero ha hs'
    | succ i =>
      simp only [slots, List.getElem?_cons_succ] at hs
      exact ih ha hs hs'

theorem till_of_mem_slots {s : Slot α} (hs : s ∈ slots free ticket arrivals) :
    s.till = s.since + s.course.span := by
  induction arrivals generalizing free ticket with
  | nil => simp [slots] at hs
  | cons a rest ih =>
    rcases List.mem_cons.mp hs with rfl | hs
    · rfl
    · exact ih hs

theorem pairwise_slots : (slots free ticket arrivals).Pairwise fun s s' => s.till ≤ s'.since := by
  induction arrivals generalizing free ticket with
  | nil => exact .nil
  | cons a rest ih => exact .cons (fun s hs => (slot_bounds hs).1) ih

theorem inTurn_timetable (arrivals : List (Arrival α)) : InTurn arrivals (timetable arrivals) where
  tickets := by rw [timetable, map_ticket_slots, List.range_eq_range']
  courses := map_course_slots
  first a s ha hs := by simpa using since_slots_zero ha hs
  next _ _ _ _ ha hs hs' := since_slots_succ ha hs hs'
  span _ hs := till_of_mem_slots hs
  apart := pairwise_slots

end

theorem timetable_split (past future : List (Arrival α)) :
    timetable (past ++ future) = timetable past ++ slots (finish 0 past) past.length future := by
  simp [timetable, slots_append]

@[simp] theorem length_timetable (arrivals : List (Arrival α)) :
    (timetable arrivals).length = arrivals.length := by
  have hlen := congrArg List.length (@map_ticket_slots α 0 0 arrivals)
  simpa [timetable] using hlen

end TimedDispatcher

end Supervisor
