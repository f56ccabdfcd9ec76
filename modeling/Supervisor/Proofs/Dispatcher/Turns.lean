import Supervisor.Proofs.Dispatcher.History
/-!
# Jobs run in turn

A dispatcher always does what its timetable says, and nothing else, whenever callers submit jobs, in
whatever order they wait for results, and whoever stops waiting.
-/
namespace Supervisor

namespace TimedDispatcher
variable {α : Type}

/-- At any moment the dispatcher has done the first part of what the timetable says: all that was due
before and nothing that is due later. A job runs within its slot and at no other time. -/
structure Follows (table : List (Slot α)) (t : TimedDispatcher α) : Prop where
  done : ∀ m ∈ t.marks, m.1 ≤ t.clock
  todo : ∃ todo, table.flatMap Slot.marks = t.marks.reverse ++ todo ∧ ∀ m ∈ todo, t.clock ≤ m.1
  running : ∀ i, t.queue.running = some i → ∃ s, table[i]? = some s ∧
    t.current = some (s.course, s.since) ∧ s.since ≤ t.clock ∧ t.clock ≤ s.till
  inside : ∀ s ∈ table, s.since < t.clock → t.clock < s.till → t.queue.running = some s.ticket

/-- Where nothing more is due, the dispatcher has done exactly what the timetable says until now, and a
job is running in its slot and at no other time. -/
structure Keeps (table : List (Slot α)) (t : TimedDispatcher α) : Prop where
  marks : t.marks.reverse = (table.flatMap Slot.marks).filter fun m => m.1 ≤ t.clock
  running : ∀ s ∈ table, t.queue.running = some s.ticket ↔ s.since ≤ t.clock ∧ t.clock < s.till

section
variable {t : TimedDispatcher α} {past future arrivals : List (Arrival α)} {a : Arrival α} {limit n : Nat}

/-! ## Between two events -/

theorem Serves.done (h : Serves past t future n) : ∀ m ∈ t.marks, m.1 ≤ t.clock := by
  intro m hm
  have hpast : m ∈ (timetable past).flatMap Slot.marks → m.1 ≤ t.clock := fun hm =>
    Nat.le_trans (time_of_mem_marks hm).2 h.finish_le_clock
  rw [← List.mem_reverse] at hm
  cases h with
  | idle h => exact hpast (h.marks ▸ hm)
  | busy h =>
    rw [h.marks] at hm
    rcases List.mem_append.mp hm with hm | hm
    · exact hpast hm
    · obtain rfl := List.mem_singleton.mp hm
      exact h.begun

/-- What is still to be done is due now or later: the next job begins now, or the running job has not
ended. -/
theorem Serves.todo (h : Serves past t future n) :
    ∃ todo, (timetable (past ++ future)).flatMap Slot.marks = t.marks.reverse ++ todo ∧
      ∀ m ∈ todo, t.clock ≤ m.1 := by
  cases h with
  | idle h =>
    refine ⟨_, by rw [timetable_split, List.flatMap_append, h.marks], fun m hm => ?_⟩
    cases future with
    | nil => simp [slots] at hm
    | cons a future =>
      have hclock : t.clock = (a.slot (finish 0 past) past.length).since := h.prompt a rfl
      rw [hclock]
      exact since_le_of_mem_marks hm
  | @busy a future h =>
    have hpending := h.pending
    refine ⟨(a.slot (finish 0 past) past.length).marks.tail ++
      (slots (a.slot (finish 0 past) past.length).till (past.length + 1) future).flatMap Slot.marks, ?_,
      fun m hm => ?_⟩
    · rw [timetable_append, List.flatMap_append, List.flatMap_cons, h.marks, List.append_assoc]
      rfl
    · rcases List.mem_append.mp hm with hm | hm
      · simp only [Slot.marks, List.tail_cons] at hm
        split at hm
        · simp at hm
        · obtain rfl := List.mem_singleton.mp hm
          exact hpending
      · exact Nat.le_trans hpending (time_of_mem_marks hm).1

theorem Serves.running (h : Serves past t future n) {i : Ticket} (hi : t.queue.running = some i) :
    ∃ s, (timetable (past ++ future))[i]? = some s ∧ t.current = some (s.course, s.since) ∧
      s.since ≤ t.clock ∧ t.clock ≤ s.till := by
  cases h with
  | idle h => simp [h.running] at hi
  | @busy a future h =>
    obtain rfl : past.length = i := Option.some.inj (h.running.symm.trans hi)
    refine ⟨_, ?_, h.current, h.begun, h.pending⟩
    rw [timetable_append, List.getElem?_append_right (by simp), length_timetable, Nat.sub_self]
    rfl

theorem Serves.inside (h : Serves past t future n) {s : Slot α} (hs : s ∈ timetable (past ++ future))
    (hb : s.since < t.clock) (hl : t.clock < s.till) : t.queue.running = some s.ticket := by
  have hpast : s ∉ timetable past := by
    intro hs
    have hslot := slot_bounds hs
    have hfree := h.finish_le_clock
    omega
  rw [timetable_split] at hs
  have hs' := (List.mem_append.mp hs).resolve_left hpast
  cases h with
  | idle h =>
    cases future with
    | nil => simp [slots] at hs'
    | cons a future =>
      have hclock : t.clock = (a.slot (finish 0 past) past.length).since := h.prompt a rfl
      have hfirst := since_le_of_mem_slots hs'
      omega
  | @busy a future h =>
    rcases List.mem_cons.mp hs' with rfl | hs'
    · exact h.running
    · have hslot := slot_bounds hs'
      have hpending := h.pending
      omega

theorem History.follows (h : History arrivals t) (he : ∀ a ∈ arrivals, a.course.ends = true) :
    Follows (timetable arrivals) t := by
  obtain ⟨past, future, n, rfl, hs, -⟩ := h.kept he
  exact ⟨hs.done, hs.todo, fun _ hi => hs.running hi, fun _ hs' hb hl => hs.inside hs' hb hl⟩

/-! ## Where nothing more is due -/

theorem filter_marks_of_finish_le {free clock : Nat} {ticket : Ticket} (hf : finish free arrivals ≤ clock) :
    ((slots free ticket arrivals).flatMap Slot.marks).filter (fun m => m.1 ≤ clock) =
      (slots free ticket arrivals).flatMap Slot.marks := by
  refine List.filter_eq_self.mpr fun m hm => ?_
  have hb := time_of_mem_marks hm
  simp only [decide_eq_true_eq]
  omega

theorem filter_marks_of_lt {free clock : Nat} {ticket : Ticket} (hf : clock < free) :
    ((slots free ticket arrivals).flatMap Slot.marks).filter (fun m => m.1 ≤ clock) = [] := by
  refine List.filter_eq_nil_iff.mpr fun m hm => ?_
  have hb := time_of_mem_marks hm
  simp only [decide_eq_true_eq]
  omega

theorem Idle.keeps (h : Idle arrivals [] t) : Keeps (timetable arrivals) t where
  marks := by rw [h.marks, timetable, filter_marks_of_finish_le h.free]
  running s hs := by
    have hb := slot_bounds hs
    have hf := h.free
    simp only [h.running, reduceCtorEq, false_iff, not_and]
    omega

theorem Slot.filter_marks {s : Slot α} {clock : Nat} (hb : s.since ≤ clock) (hl : clock < s.till) :
    s.marks.filter (fun m => m.1 ≤ clock) = [(s.since, .started s.ticket)] := by
  have hn : ¬ s.till ≤ clock := by omega
  cases hp : s.course.ending.isPanic <;> simp [Slot.marks, hp, hb, hn]

theorem Busy.keeps (h : Busy past (a.slot (finish 0 past) past.length) future t)
    (hl : t.clock < (a.slot (finish 0 past) past.length).till) :
    Keeps (timetable (past ++ a :: future)) t where
  marks := by
    have hf : finish 0 past ≤ t.clock := Nat.le_trans (a.le_since_slot _ _) h.begun
    rw [h.marks, timetable_append, List.flatMap_append, List.flatMap_cons, List.filter_append,
      List.filter_append, Slot.filter_marks h.begun hl, filter_marks_of_lt hl, List.append_nil, timetable,
      filter_marks_of_finish_le hf]
    rfl
  running s hs := by
    have hb := h.begun
    rw [timetable_append] at hs
    rw [h.running, Option.some.injEq]
    rcases List.mem_append.mp hs with hs | hs
    · have hslot := slot_bounds hs
      have hticket := (ticket_bounds hs).2
      have hf := a.le_since_slot (finish 0 past) past.length
      constructor
      · intro he
        rw [← he, Nat.zero_add] at hticket
        exact (Nat.lt_irrefl _ hticket).elim
      · omega
    · rcases List.mem_cons.mp hs with rfl | hs
      · exact ⟨fun _ => ⟨hb, hl⟩, fun _ => rfl⟩
      · have hslot := slot_bounds hs
        have hticket := (ticket_bounds hs).1
        constructor
        · intro he
          rw [← he] at hticket
          exact (Nat.not_succ_le_self _ hticket).elim
        · omega

theorem History.keeps (h : History arrivals t) (he : ∀ a ∈ arrivals, a.course.ends = true)
    (hq : t.step? t.clock = none) : Keeps (timetable arrivals) t := by
  obtain ⟨past, future, n, rfl, hs, -⟩ := h.kept he
  have hends : ∀ a ∈ future, a.course.ends = true := fun a ha => he a (List.mem_append_right _ ha)
  have hsettled := hs.settled hends hq
  generalize past ++ future = arrivals at hsettled
  cases hsettled with
  | idle h => exact h.keeps
  | busy h hl => exact h.keeps hl

end

/-- Jobs that end are carried out one at a time, each of them once and in the order in which they were
submitted, and each begins when it is submitted or when the one before it ends, whichever is later. It
is so at every moment, whoever waits and whoever has stopped waiting. When the last slot is over, all of
them have been carried out. -/
theorem jobs_run_in_turn {arrivals : List (Arrival α)} {t : TimedDispatcher α} (h : History arrivals t)
    (he : ∀ a ∈ arrivals, a.course.ends = true) :
    InTurn arrivals (timetable arrivals) ∧ Follows (timetable arrivals) t ∧
      (t.step? t.clock = none → Keeps (timetable arrivals) t) ∧
      ∀ d, Keeps (timetable arrivals) (t.sleep d) ∧
        ((∀ s ∈ timetable arrivals, s.till ≤ t.clock + d) →
          (t.sleep d).marks.reverse = (timetable arrivals).flatMap Slot.marks) := by
  refine ⟨inTurn_timetable arrivals, h.follows he, h.keeps he, fun d => ?_⟩
  obtain ⟨hlater, hclock, hquiet⟩ := h.runTo he (Nat.le_add_right t.clock d)
  have hkeeps : Keeps (timetable arrivals) (t.sleep d) := hlater.keeps he hquiet
  refine ⟨hkeeps, fun hd => hkeeps.marks.trans (List.filter_eq_self.mpr fun m hm => ?_)⟩
  have hclock' : (t.sleep d).clock = t.clock + d := hclock
  obtain ⟨s, hs, hm⟩ := List.mem_flatMap.mp hm
  have hb := slot_bounds hs
  have hlast := hd s hs
  simp only [decide_eq_true_eq]
  rcases Slot.time_of_mem_marks hm with ht | ht <;> omega

/-- A job that panics before it waits, and one that comes while a slow one is running, whose caller stops
waiting for it then. A fourth comes at the moment at which the slow one panics, before the next is
started; the caller of the third waits for its result, but not long enough. -/
theorem jobs_run_in_turn_panics : ∃ (arrivals : List (Arrival Unit)) (t : TimedDispatcher Unit),
    History arrivals t ∧ (∀ a ∈ arrivals, a.course.ends = true) ∧ t.gone = [1] ∧ t.clock = 13 ∧
      (timetable arrivals).map Slot.since = [3, 3, 10, 14] ∧
      t.marks.reverse = [(3, .started 0), (3, .started 1), (10, .started 2)] ∧
      t.queue.running = some 2 ∧
      InTurn arrivals (timetable arrivals) ∧ Follows (timetable arrivals) t ∧
      (t.step? t.clock = none → Keeps (timetable arrivals) t) ∧
      ∀ d, Keeps (timetable arrivals) (t.sleep d) ∧
        ((∀ s ∈ timetable arrivals, s.till ≤ t.clock + d) →
          (t.sleep d).marks.reverse = (timetable arrivals).flatMap Slot.marks) := by
  have slow := (History.start 3 : History (α := Unit) [] _)
    |>.submits { delay := 9, ending := .panic (.text "early"), early := true } (by decide)
    |>.submits { delay := 7, ending := .panic .other } (by decide)
    |>.sleeps (by decide) 4
  have left := slow.abandon 1 |>.submits { delay := 4, ending := .value () } (by decide)
  have panicked := left.event (rfl : step? 10 _ = some _)
  have last := panicked.submits { delay := 1, ending := .fault .dispatcherClosed } (by decide)
    |>.awaits (by decide) (by rfl) 2 3
  exact ⟨_, _, last, by decide, rfl, rfl, by decide, rfl, rfl, jobs_run_in_turn last (by decide)⟩

end TimedDispatcher

end Supervisor
