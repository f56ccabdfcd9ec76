import Supervisor.Proofs.Dispatcher.Timetable
/-!
# The history of a dispatcher

Whatever callers do, a dispatcher has at any moment dealt with the first jobs of its timetable, and the
others are still to come. What it has told its callers, and its counters, are those of the jobs that it
has dealt with.
-/
namespace Supervisor

namespace TimedDispatcher
variable {α : Type}

/-! ## The states of a dispatcher -/

def ticketed (n : Ticket) : List (Arrival α) → List (Ticket × Course α)
  | [] => []
  | a :: rest => (n, a.course) :: ticketed (n + 1) rest

theorem ticketed_snoc (n : Ticket) (future : List (Arrival α)) (a : Arrival α) :
    ticketed n (future ++ [a]) = ticketed n future ++ [(n + future.length, a.course)] := by
  induction future generalizing n with
  | nil => rfl
  | cons b rest ih =>
    simp only [List.cons_append, ticketed, ih, List.length_cons]
    rw [Nat.add_right_comm, Nat.add_assoc]

@[simp] theorem length_ticketed (n : Ticket) (future : List (Arrival α)) :
    (ticketed n future).length = future.length := by
  induction future generalizing n with
  | nil => rfl
  | cons a rest ih => simp [ticketed, ih]

/-- The first `n` jobs have been started, and these wait. -/
structure Queued (n : Nat) (future : List (Arrival α)) (t : TimedDispatcher α) : Prop where
  waiting : t.queue.waiting = ticketed n future
  accepted : t.queue.accepted = n + future.length
  isOpen : t.queue.closed = false
  arrived : ∀ a ∈ future, a.time ≤ t.clock

/-- Nothing is running; what waits is started now. -/
structure Idle (past future : List (Arrival α)) (t : TimedDispatcher α) : Prop
    extends Queued past.length future t where
  running : t.queue.running = none
  current : t.current = none
  marks : t.marks.reverse = (timetable past).flatMap Slot.marks
  free : finish 0 past ≤ t.clock
  prompt : ∀ a, future.head? = some a → t.clock = max a.time (finish 0 past)

structure Busy (past : List (Arrival α)) (s : Slot α) (future : List (Arrival α))
    (t : TimedDispatcher α) : Prop extends Queued (past.length + 1) future t where
  running : t.queue.running = some past.length
  current : t.current = some (s.course, s.since)
  marks : t.marks.reverse = (timetable past).flatMap Slot.marks ++ [(s.since, .started past.length)]
  begun : s.since ≤ t.clock
  pending : t.clock ≤ s.till

/-- The dispatcher has dealt with the past, and this many events may still come. -/
inductive Serves (past : List (Arrival α)) (t : TimedDispatcher α) :
    List (Arrival α) → Nat → Prop
  | idle {future : List (Arrival α)} (h : Idle past future t) : Serves past t future (2 * future.length)
  | busy {a : Arrival α} {future : List (Arrival α)}
    (h : Busy past (a.slot (finish 0 past) past.length) future t) :
    Serves past t (a :: future) (2 * future.length + 1)

/-- Nothing more can happen by `limit`. -/
inductive Settled (limit : Nat) (t : TimedDispatcher α) : List (Arrival α) → Prop
  | idle {arrivals : List (Arrival α)} (h : Idle arrivals [] t) : Settled limit t arrivals
  | busy {past : List (Arrival α)} {a : Arrival α} {future : List (Arrival α)}
    (h : Busy past (a.slot (finish 0 past) past.length) future t)
    (hl : limit < (a.slot (finish 0 past) past.length).till) :
    Settled limit t (past ++ a :: future)

section
variable {t : TimedDispatcher α} {past future arrivals : List (Arrival α)} {a : Arrival α} {limit : Nat}

theorem Serves.le_bound {n : Nat} (h : Serves past t future n) : n ≤ t.bound := by
  cases h with
  | idle h =>
    simp only [bound, Dispatcher.held, h.waiting, length_ticketed]
    omega
  | busy h =>
    simp only [bound, Dispatcher.held, h.waiting, h.running, length_ticketed, Option.isSome_some,
      if_true]
    omega

/-! ## Steps -/

theorem Idle.step?_nil (h : Idle past [] t) : t.step? limit = none := by
  simp [step?, h.running, Dispatcher.start?, h.waiting, ticketed]

theorem Idle.step?_cons (h : Idle past (a :: future) t) (limit : Nat) :
    ∃ t', t.step? limit = some t' ∧ t'.clock = t.clock ∧
      Busy past (a.slot (finish 0 past) past.length) future t' := by
  have hclock : t.clock = (a.slot (finish 0 past) past.length).since := h.prompt a rfl
  have hw : t.queue.waiting = (past.length, a.course) :: ticketed (past.length + 1) future := h.waiting
  have hstep : t.step? limit = some (({ t with
      queue := { t.queue with
        waiting := ticketed (past.length + 1) future, running := some past.length }
      current := some (a.course, t.clock) } : TimedDispatcher α).mark (.started past.length)) := by
    simp [step?, h.running, Dispatcher.start?, hw]
  refine ⟨_, hstep, rfl, ⟨⟨rfl, ?_, h.isOpen, fun b hb => h.arrived b (by simp [hb])⟩, rfl, ?_, ?_, ?_, ?_⟩⟩
  · have ha := h.accepted
    rw [List.length_cons] at ha
    rw [queue_mark, ha]
    omega
  · rw [current_mark, hclock]
    rfl
  · simp [h.marks, hclock]
  · exact Nat.le_of_eq (by rw [clock_mark, hclock])
  · rw [clock_mark, hclock]
    exact a.since_le_till_slot _ _

theorem Busy.step?_of_lt (h : Busy past (a.slot (finish 0 past) past.length) future t)
    (he : a.course.ends = true) (hl : limit < (a.slot (finish 0 past) past.length).till) :
    t.step? limit = none := by
  have hd : a.course.due? (a.slot (finish 0 past) past.length).since =
      some (a.slot (finish 0 past) past.length).till := Course.due?_eq_some he _
  have hc : t.current = some (a.course, (a.slot (finish 0 past) past.length).since) := h.current
  simp only [step?, h.running, hc, hd]
  exact if_neg (by omega)

/-- The running job ends, and the next one is due at the same moment. -/
theorem Busy.step?_of_le (h : Busy past (a.slot (finish 0 past) past.length) future t)
    (he : a.course.ends = true) (hl : (a.slot (finish 0 past) past.length).till ≤ limit) :
    ∃ t', t.step? limit = some t' ∧ t'.clock = (a.slot (finish 0 past) past.length).till ∧
      Idle (past ++ [a]) future t' := by
  have hd : a.course.due? (a.slot (finish 0 past) past.length).since =
      some (a.slot (finish 0 past) past.length).till := Course.due?_eq_some he _
  have hc : t.current = some (a.course, (a.slot (finish 0 past) past.length).since) := h.current
  have hclock : max t.clock (a.slot (finish 0 past) past.length).till =
      (a.slot (finish 0 past) past.length).till := Nat.max_eq_right h.pending
  have hf : finish 0 (past ++ [a]) = (a.slot (finish 0 past) past.length).till := finish_snoc past a
  have hstep : t.step? limit = some (({ t with
      clock := (a.slot (finish 0 past) past.length).till } : TimedDispatcher α).endCurrent a.course
        past.length) := by
    simp only [step?, h.running, hc, hd, hclock]
    exact if_pos hl
  refine ⟨_, hstep, by rw [clock_endCurrent], ⟨⟨?_, ?_, ?_, ?_⟩, ?_, current_endCurrent _ _ _, ?_, ?_, ?_⟩⟩
  · rw [queue_endCurrent, Dispatcher.waiting_release, h.waiting, List.length_append]
    rfl
  · rw [queue_endCurrent, Dispatcher.accepted_release, h.accepted, List.length_append]
    rfl
  · rw [queue_endCurrent, Dispatcher.closed_release, h.isOpen]
  · intro b hb
    rw [clock_endCurrent]
    exact Nat.le_trans (h.arrived b hb) h.pending
  · rw [queue_endCurrent, Dispatcher.running_release]
  · rw [marks_endCurrent, List.reverse_append, h.marks, timetable_append past a []]
    cases hp : a.course.ending.isPanic <;> simp [slots, Slot.marks, Arrival.slot, hp]
  · exact Nat.le_of_eq (by rw [clock_endCurrent, hf])
  · intro b hb
    have hb' : b.time ≤ t.clock := h.arrived b (List.mem_of_mem_head? hb)
    have hp := h.pending
    rw [clock_endCurrent, hf]
    exact (Nat.max_eq_right (Nat.le_trans hb' hp)).symm

/-- Once the steps that are due have been made, nothing more can happen. -/
theorem Serves.settles {n m : Nat} (h : Serves past t future n) (hn : n ≤ m)
    (he : ∀ a ∈ future, a.course.ends = true) (hl : t.clock ≤ limit) :
    Settled limit (t.steps limit m) (past ++ future) ∧ (t.steps limit m).clock ≤ limit := by
  induction m generalizing t past future n with
  | zero =>
    cases h with
    | idle h =>
      have hf : future = [] := List.eq_nil_of_length_eq_zero (by omega)
      subst hf
      simpa [steps] using And.intro (Settled.idle h) hl
    | busy h => omega
  | succ m ih =>
    cases h with
    | idle h =>
      cases future with
      | nil =>
        simp only [steps, h.step?_nil, List.append_nil]
        exact ⟨.idle h, hl⟩
      | cons a future =>
        obtain ⟨t', hstep, hclock, hb⟩ := h.step?_cons limit
        simp only [List.length_cons] at hn
        simp only [steps, hstep]
        exact ih (.busy hb) (by omega) he (by omega)
    | @busy a future h =>
      have ha : a.course.ends = true := he a (by simp)
      by_cases hd : (a.slot (finish 0 past) past.length).till ≤ limit
      · obtain ⟨t', hstep, hclock, hi⟩ := h.step?_of_le ha hd
        simp only [steps, hstep]
        have hnext := ih (.idle hi) (by omega) (fun b hb => he b (by simp [hb])) (by omega)
        simpa using hnext
      · have hlt : limit < (a.slot (finish 0 past) past.length).till := by omega
        simp only [steps, h.step?_of_lt ha hlt]
        exact ⟨.busy h hlt, hl⟩

theorem Serves.runTo {n : Nat} (h : Serves past t future n)
    (he : ∀ a ∈ future, a.course.ends = true) (hl : t.clock ≤ limit) :
    Settled limit (t.runTo limit) (past ++ future) ∧ (t.runTo limit).clock = limit := by
  obtain ⟨hs, hc⟩ := h.settles h.le_bound he hl
  have hclock : max t.clock limit = limit := Nat.max_eq_right hl
  rw [TimedDispatcher.runTo, hclock]
  refine ⟨?_, rfl⟩
  -- The clock moves on to the limit while nothing happens.
  generalize past ++ future = arrivals at hs
  cases hs with
  | idle h =>
    exact .idle ⟨⟨h.waiting, h.accepted, h.isOpen, by simp⟩, h.running, h.current, h.marks,
      Nat.le_trans h.free hc, by simp⟩
  | busy h hlt =>
    exact .busy ⟨⟨h.waiting, h.accepted, h.isOpen, fun b hb => Nat.le_trans (h.arrived b hb) hc⟩,
      h.running, h.current, h.marks, Nat.le_trans h.begun hc, Nat.le_of_lt hlt⟩ hlt

theorem Queued.submit {n : Nat} (h : Queued n future t) (c : Course α) :
    Queued n (future ++ [⟨t.clock, c⟩]) { t with queue := (t.queue.submit c).2 } := by
  have hq : (t.queue.submit c).2 = { t.queue with
      waiting := t.queue.waiting ++ [(t.queue.accepted, c)]
      accepted := t.queue.accepted + 1
      pending := t.queue.pending + 1 } := by
    simp [Dispatcher.submit, h.isOpen]
  refine ⟨?_, ?_, ?_, ?_⟩
  · simp [hq, ticketed_snoc, h.waiting, h.accepted]
  · simp [hq, h.accepted, Nat.add_assoc]
  · simp [hq, h.isOpen]
  · intro b hb
    rcases List.mem_append.mp hb with hb | hb
    · exact h.arrived b hb
    · obtain rfl := List.mem_singleton.mp hb
      exact Nat.le_refl _

theorem Serves.submit {n : Nat} (h : Serves past t future n) (c : Course α) :
    ∃ m, Serves past { t with queue := (t.queue.submit c).2 } (future ++ [⟨t.clock, c⟩]) m := by
  cases h with
  | idle h =>
    refine ⟨_, .idle ⟨h.toQueued.submit c, ?_, h.current, h.marks, h.free, ?_⟩⟩
    · rw [Dispatcher.running_submit, h.running]
    · intro a ha
      cases future with
      | nil =>
        obtain rfl := Option.some.inj ha
        exact (Nat.max_eq_left h.free).symm
      | cons b future => exact h.prompt a ha
  | @busy a future h =>
    refine ⟨_, .busy ⟨h.toQueued.submit c, ?_, h.current, h.marks, h.begun, h.pending⟩⟩
    rw [Dispatcher.running_submit, h.running]

end

/-! ## Moments -/

/-- A dispatcher to which these jobs were submitted, at any moment of its work. A job may be submitted
between any two events, as by a job that is running, and any caller may stop waiting. The clock moves
as long as nothing is due. -/
inductive History : List (Arrival α) → TimedDispatcher α → Prop
  | start (clock : Nat) : History [] { clock }
  | submit {arrivals : List (Arrival α)} {t : TimedDispatcher α} (h : History arrivals t) (c : Course α) :
    History (arrivals ++ [⟨t.clock, c⟩]) { t with queue := (t.queue.submit c).2 }
  | event {arrivals : List (Arrival α)} {t t' : TimedDispatcher α} {limit : Nat}
    (h : History arrivals t) (ht : t.step? limit = some t') : History arrivals t'
  | wait {arrivals : List (Arrival α)} {t : TimedDispatcher α} {limit : Nat} (h : History arrivals t)
    (hq : t.step? limit = none) : History arrivals { t with clock := max t.clock limit }
  | abandon {arrivals : List (Arrival α)} {t : TimedDispatcher α} (h : History arrivals t)
    (ticket : Ticket) : History arrivals (t.abandon ticket)

/-- What the caller with this ticket has received. -/
def received (t : TimedDispatcher α) (ticket : Ticket) : List (Except Fault α) :=
  (t.results.reverse.filter (·.1 == ticket)).map (·.2)

/-- All that can happen next: the running job ends, or the oldest waiting job is started. -/
theorem step?_cases {t t' : TimedDispatcher α} {limit : Nat} (h : t.step? limit = some t') :
    (∃ ticket c since d, t.queue.running = some ticket ∧ t.current = some (c, since) ∧
      c.due? since = some d ∧ d ≤ limit ∧
      t' = ({ t with clock := max t.clock d } : TimedDispatcher α).endCurrent c ticket) ∨
    (∃ c queue, t.queue.start? = some (c, queue) ∧
      t' = ({ t with queue, current := some (c, t.clock) } : TimedDispatcher α).mark
        (.started (queue.running.getD 0))) := by
  unfold step? at h
  split at h
  · next ticket c since hr hc =>
    split at h
    · next d hd =>
      by_cases hl : d ≤ limit
      · rw [if_pos hl] at h
        exact .inl ⟨ticket, c, since, d, hr, hc, hd, hl, (Option.some.inj h).symm⟩
      · rw [if_neg hl] at h
        cases h
    · cases h
  · split at h
    · next c queue hq => exact .inr ⟨c, queue, hq, (Option.some.inj h).symm⟩
    · cases h

/-! ## Results -/

/-- What the callers of these jobs are to be told. -/
def told (past : List (Arrival α)) (i : Ticket) : List (Except Fault α) :=
  (past[i]?.bind fun a => a.course.ending.result?).toList

theorem told_of_le {past : List (Arrival α)} {i : Ticket} (hi : past.length ≤ i) : told past i = [] := by
  rw [told, List.getElem?_eq_none hi]
  rfl

theorem told_of_getElem? {past : List (Arrival α)} {i : Ticket} {a : Arrival α} {r : Except Fault α}
    (ha : past[i]? = some a) (hr : a.course.ending.result? = some r) : told past i = [r] := by
  rw [told, ha, Option.bind_some, hr]
  rfl

theorem told_snoc_length (past : List (Arrival α)) (a : Arrival α) :
    told (past ++ [a]) past.length = a.course.ending.result?.toList := by
  simp [told]

theorem told_snoc_of_ne (past : List (Arrival α)) (a : Arrival α) {i : Ticket} (hi : i ≠ past.length) :
    told (past ++ [a]) i = told past i := by
  rcases Nat.lt_or_gt_of_ne hi with hlt | hgt
  · rw [told, told, List.getElem?_append_left hlt]
  · rw [told_of_le (Nat.le_of_lt hgt), told_of_le]
    rw [List.length_append]
    exact hgt

/-- The result of a job goes to the caller with its ticket, unless that caller is gone. -/
theorem received_endCurrent (t : TimedDispatcher α) (c : Course α) (ticket i : Ticket) :
    (t.endCurrent c ticket).received i =
      t.received i ++ if i = ticket ∧ i ∉ t.gone then c.ending.result?.toList else [] := by
  rw [received, results_endCurrent, List.reverse_append, List.filter_append, List.map_append, ← received]
  congr 1
  by_cases hi : i = ticket
  · subst hi
    by_cases hg : i ∈ t.gone
    · simp [hg]
    · cases c.ending.result? <;> simp [hg]
  · have hne : ticket ≠ i := Ne.symm hi
    by_cases hg : ticket ∈ t.gone
    · simp [hi, hg]
    · cases c.ending.result? <;> simp [hi, hg, hne]

/-! ## The books of a dispatcher -/

/-- These jobs, the first ones, have been dealt with. -/
structure Booked (past : List (Arrival α)) (t : TimedDispatcher α) : Prop where
  completed : t.queue.completed = past.length
  pending : t.queue.pending = t.queue.held
  /-- Only those who are gone may have missed something. -/
  told : ∀ i, t.received i = told past i ∨ i ∈ t.gone ∧ t.received i = []

section
variable {t t' : TimedDispatcher α} {past future arrivals : List (Arrival α)} {limit n : Nat}

theorem Serves.isOpen (h : Serves past t future n) : t.queue.closed = false := by
  cases h with
  | idle h => exact h.isOpen
  | busy h => exact h.isOpen

theorem Serves.finish_le_clock (h : Serves past t future n) :
    finish 0 past ≤ t.clock := by
  cases h with
  | idle h => exact h.free
  | busy h => exact Nat.le_trans (Arrival.le_since_slot _ _ _) h.begun

theorem Serves.accepted (h : Serves past t future n) :
    t.queue.accepted = (past ++ future).length := by
  rw [List.length_append]
  cases h with
  | idle h => exact h.accepted
  | busy h =>
    rw [h.accepted, List.length_cons]
    omega

theorem Booked.submit (h : Booked past t) (ho : t.queue.closed = false) (c : Course α) :
    Booked past { t with queue := (t.queue.submit c).2 } := by
  refine ⟨?_, ?_, h.told⟩
  · rw [Dispatcher.completed_submit, h.completed]
  · have hp := h.pending
    simp only [Dispatcher.submit, Dispatcher.held, ho] at hp ⊢
    simp only [Bool.false_eq_true, if_false, List.length_append, List.length_singleton]
    omega

theorem Booked.wait (h : Booked past t) (clock : Nat) : Booked past { t with clock } :=
  ⟨h.completed, h.pending, h.told⟩

theorem Booked.abandon (h : Booked past t) (ticket : Ticket) : Booked past (t.abandon ticket) := by
  refine ⟨h.completed, h.pending, fun i => ?_⟩
  rcases h.told i with htold | ⟨hg, hnone⟩
  · exact .inl htold
  · exact .inr ⟨List.mem_cons_of_mem _ hg, hnone⟩

/-- A job that is started is counted as before. -/
theorem Booked.begins (h : Booked past t) (hr : t.queue.running = none)
    (ht : t.step? limit = some t') : Booked past t' := by
  obtain ⟨ticket, c, since, d, hrunning, -⟩ | ⟨c, queue, hq, rfl⟩ := step?_cases ht
  · simp [hr] at hrunning
  · have hheld := Dispatcher.held_start? hq
    obtain ⟨-, ticket, rest, -, rfl⟩ := Dispatcher.start?_eq_some hq
    exact ⟨h.completed, h.pending.trans hheld.symm, h.told⟩

/-- The job that ends is the next one to be counted. -/
theorem Booked.endCurrent (h : Booked past t) (hr : t.queue.running = some past.length) (a : Arrival α) :
    Booked (past ++ [a]) (t.endCurrent a.course past.length) := by
  have hpending := h.pending
  simp only [Dispatcher.held, hr, Option.isSome_some, if_true] at hpending
  refine ⟨?_, ?_, fun i => ?_⟩
  · simp [Dispatcher.release, hr, h.completed]
  · simp [Dispatcher.release, Dispatcher.held, hr, hpending]
  · rw [received_endCurrent, gone_endCurrent]
    by_cases hi : i = past.length
    · -- Nothing was for this caller before.
      subst hi
      have hnone : t.received past.length = [] := by
        rcases h.told past.length with htold | ⟨-, hnone⟩
        · exact htold.trans (told_of_le (Nat.le_refl _))
        · exact hnone
      by_cases hg : past.length ∈ t.gone
      · exact .inr ⟨hg, by simp [hg, hnone]⟩
      · exact .inl (by simp [hg, hnone, told_snoc_length])
    · rw [if_neg fun h => hi h.1, List.append_nil, told_snoc_of_ne past a hi]
      exact h.told i

theorem Booked.ends {a : Arrival α} (h : Booked past t)
    (hb : Busy past (a.slot (finish 0 past) past.length) future t) (ht : t.step? limit = some t') :
    Booked (past ++ [a]) t' := by
  have hcurrent : t.current = some (a.course, (a.slot (finish 0 past) past.length).since) := hb.current
  obtain ⟨ticket, c, since, d, hr, hc, -, -, rfl⟩ | ⟨c, queue, hq, -⟩ := step?_cases ht
  · obtain rfl : past.length = ticket := Option.some.inj (hb.running.symm.trans hr)
    obtain ⟨rfl, -⟩ : a.course = c ∧ _ := Prod.mk.inj (Option.some.inj (hcurrent.symm.trans hc))
    exact (h.wait (max t.clock d)).endCurrent hr a
  · have hnone := Dispatcher.idle_of_start? hq
    simp [hb.running] at hnone

theorem Serves.event (h : Serves past t future n) (hbook : Booked past t)
    (he : ∀ a ∈ future, a.course.ends = true) (ht : t.step? limit = some t') :
    ∃ past' future' n', past' ++ future' = past ++ future ∧ Serves past' t' future' n' ∧
      Booked past' t' := by
  cases h with
  | idle h =>
    have hbook' := hbook.begins h.running ht
    cases future with
    | nil =>
      rw [h.step?_nil] at ht
      cases ht
    | cons a future =>
      obtain ⟨u, hu, -, hb⟩ := h.step?_cons limit
      obtain rfl : u = t' := Option.some.inj (hu.symm.trans ht)
      exact ⟨past, a :: future, _, rfl, .busy hb, hbook'⟩
  | @busy a future h =>
    have ha : a.course.ends = true := he a (by simp)
    have hbook' := hbook.ends h ht
    by_cases hd : (a.slot (finish 0 past) past.length).till ≤ limit
    · obtain ⟨u, hu, -, hi⟩ := h.step?_of_le ha hd
      obtain rfl : u = t' := Option.some.inj (hu.symm.trans ht)
      exact ⟨past ++ [a], future, _, by simp, .idle hi, hbook'⟩
    · rw [h.step?_of_lt ha (by omega)] at ht
      cases ht

theorem Idle.future_eq_nil (h : Idle past future t) (hq : t.step? limit = none) : future = [] := by
  cases future with
  | nil => rfl
  | cons a future =>
    obtain ⟨u, hu, -⟩ := h.step?_cons limit
    rw [hq] at hu
    cases hu

theorem Busy.lt_till {a : Arrival α} (h : Busy past (a.slot (finish 0 past) past.length) future t)
    (ha : a.course.ends = true) (hq : t.step? limit = none) :
    limit < (a.slot (finish 0 past) past.length).till := by
  apply Nat.lt_of_not_le
  intro hd
  obtain ⟨u, hu, -⟩ := h.step?_of_le ha hd
  rw [hq] at hu
  cases hu

theorem Serves.settled (h : Serves past t future n) (he : ∀ a ∈ future, a.course.ends = true)
    (hq : t.step? limit = none) : Settled limit t (past ++ future) := by
  cases h with
  | idle h =>
    obtain rfl := h.future_eq_nil hq
    rw [List.append_nil]
    exact .idle h
  | busy h => exact .busy h (h.lt_till (he _ (by simp)) hq)

/-- Nothing becomes due while the clock moves to a limit by which nothing is due. -/
theorem Serves.wait (h : Serves past t future n) (he : ∀ a ∈ future, a.course.ends = true)
    (hq : t.step? limit = none) (hl : t.clock ≤ limit) :
    Serves past { t with clock := limit } future n := by
  cases h with
  | idle h =>
    obtain rfl := h.future_eq_nil hq
    exact .idle ⟨⟨h.waiting, h.accepted, h.isOpen, by simp⟩, h.running, h.current, h.marks,
      Nat.le_trans h.free hl, by simp⟩
  | busy h =>
    have hlt := h.lt_till (he _ (by simp)) hq
    exact .busy ⟨⟨h.waiting, h.accepted, h.isOpen, fun b hb => Nat.le_trans (h.arrived b hb) hl⟩,
      h.running, h.current, h.marks, Nat.le_trans h.begun hl, Nat.le_of_lt hlt⟩

theorem Serves.abandon (h : Serves past t future n) (ticket : Ticket) :
    Serves past (t.abandon ticket) future n := by
  cases h with
  | idle h => exact .idle ⟨⟨h.waiting, h.accepted, h.isOpen, h.arrived⟩, h.running, h.current, h.marks,
      h.free, h.prompt⟩
  | busy h => exact .busy ⟨⟨h.waiting, h.accepted, h.isOpen, h.arrived⟩, h.running, h.current, h.marks,
      h.begun, h.pending⟩

theorem Settled.step?_eq_none (h : Settled limit t arrivals)
    (he : ∀ a ∈ arrivals, a.course.ends = true) : t.step? limit = none := by
  cases h with
  | idle h => exact h.step?_nil
  | @busy past a future h hlt => exact h.step?_of_lt (he a (by simp)) hlt

end

/-! ## The books at any moment -/

/-- The jobs that were submitted are those that have been dealt with and those that have not. -/
def Kept (arrivals : List (Arrival α)) (t : TimedDispatcher α) : Prop :=
  ∃ past future n, past ++ future = arrivals ∧ Serves past t future n ∧ Booked past t

section
variable {t : TimedDispatcher α} {arrivals : List (Arrival α)} {limit : Nat}

theorem History.kept (h : History arrivals t) (he : ∀ a ∈ arrivals, a.course.ends = true) :
    Kept arrivals t := by
  induction h with
  | start clock =>
    exact ⟨[], [], _, rfl, .idle ⟨⟨rfl, rfl, rfl, by simp⟩, rfl, rfl, rfl, Nat.zero_le _, by simp⟩,
      rfl, rfl, fun i => .inl rfl⟩
  | submit _ c ih =>
    obtain ⟨past, future, n, rfl, hs, hb⟩ := ih fun a ha => he a (List.mem_append_left _ ha)
    obtain ⟨m, hs'⟩ := hs.submit c
    exact ⟨past, _, m, (List.append_assoc ..).symm, hs', hb.submit hs.isOpen c⟩
  | event _ ht ih =>
    obtain ⟨past, future, n, rfl, hs, hb⟩ := ih he
    exact hs.event hb (fun a ha => he a (List.mem_append_right _ ha)) ht
  | @wait _ t limit _ hq ih =>
    obtain ⟨past, future, n, rfl, hs, hb⟩ := ih he
    have hends : ∀ a ∈ future, a.course.ends = true := fun a ha => he a (List.mem_append_right _ ha)
    rcases Nat.le_total limit t.clock with hl | hl
    · rw [Nat.max_eq_left hl]
      exact ⟨past, future, n, rfl, hs, hb⟩
    · rw [Nat.max_eq_right hl]
      exact ⟨past, future, n, rfl, hs.wait hends hq hl, hb.wait limit⟩
  | abandon _ ticket ih =>
    obtain ⟨past, future, n, rfl, hs, hb⟩ := ih he
    exact ⟨past, future, n, rfl, hs.abandon ticket, hb.abandon ticket⟩

theorem History.steps (h : History arrivals t) (limit n : Nat) :
    History arrivals (t.steps limit n) := by
  induction n generalizing t with
  | zero => exact h
  | succ n ih =>
    simp only [TimedDispatcher.steps]
    split
    · next t' ht => exact ih (h.event ht)
    · exact h

theorem History.runTo (h : History arrivals t) (he : ∀ a ∈ arrivals, a.course.ends = true)
    (hl : t.clock ≤ limit) :
    History arrivals (t.runTo limit) ∧ (t.runTo limit).clock = limit ∧
      (t.runTo limit).step? (t.runTo limit).clock = none := by
  obtain ⟨past, future, n, rfl, hs, -⟩ := h.kept he
  have hends : ∀ a ∈ future, a.course.ends = true := fun a ha => he a (List.mem_append_right _ ha)
  obtain ⟨hset, hc⟩ := hs.settles hs.le_bound hends hl
  obtain ⟨hrun, hclock⟩ := hs.runTo hends hl
  have hwait := (h.steps limit t.bound).wait (hset.step?_eq_none he)
  rw [Nat.max_eq_right hc] at hwait
  have hquiet : (t.runTo limit).step? (t.runTo limit).clock = none := by
    rw [hclock]
    exact hrun.step?_eq_none he
  refine ⟨?_, hclock, hquiet⟩
  rw [TimedDispatcher.runTo, Nat.max_eq_right hl]
  exact hwait

theorem Kept.clock_le_due (h : Kept arrivals t) (he : ∀ a ∈ arrivals, a.course.ends = true) {d : Nat}
    (hd : t.due? = some d) : t.clock ≤ d := by
  obtain ⟨past, future, n, rfl, hserves, -⟩ := h
  cases hserves with
  | idle h => simp [due?, h.current] at hd
  | @busy a future h =>
    have ha : a.course.ends = true := he a (by simp)
    rw [due?, h.current] at hd
    obtain rfl : (a.slot (finish 0 past) past.length).till = d :=
      Option.some.inj ((Course.due?_eq_some ha _).symm.trans hd)
    exact h.pending

theorem History.awaited (h : History arrivals t) (he : ∀ a ∈ arrivals, a.course.ends = true)
    (hq : t.step? t.clock = none) (ticket : Ticket) (n : Nat) (hl : t.clock ≤ limit) :
    History arrivals (TimedDispatcher.awaitSteps ticket limit n t).2 ∧
      (TimedDispatcher.awaitSteps ticket limit n t).2.step?
        (TimedDispatcher.awaitSteps ticket limit n t).2.clock = none := by
  obtain ⟨hlast, -, hqlast⟩ := h.runTo he hl
  induction n generalizing t with
  | zero =>
    simp only [TimedDispatcher.awaitSteps]
    split
    · exact ⟨h, hq⟩
    · exact ⟨hlast, hqlast⟩
  | succ n ih =>
    simp only [TimedDispatcher.awaitSteps]
    split
    · exact ⟨h, hq⟩
    · next d _ hd =>
      split
      · next hle =>
        obtain ⟨hrun, hclock, hquiet⟩ := h.runTo he ((h.kept he).clock_le_due he hd)
        have hl' : (t.runTo d).clock ≤ limit := by rwa [hclock]
        obtain ⟨hlast', -, hqlast'⟩ := hrun.runTo he hl'
        exact ih hrun hquiet hl' hlast' hqlast'
      · exact ⟨hlast, hqlast⟩
    · exact ⟨hlast, hqlast⟩

/-- What a caller does who submits a job from outside. -/
theorem History.submits (h : History arrivals t) (c : Course α)
    (he : ∀ a ∈ arrivals ++ [⟨t.clock, c⟩], a.course.ends = true) :
    History (arrivals ++ [⟨t.clock, c⟩]) (t.submit c).2 :=
  ((h.submit c).runTo he (Nat.le_refl t.clock)).1

theorem History.sleeps (h : History arrivals t) (he : ∀ a ∈ arrivals, a.course.ends = true) (d : Nat) :
    History arrivals (t.sleep d) := (h.runTo he (Nat.le_add_right _ d)).1

theorem History.awaits (h : History arrivals t) (he : ∀ a ∈ arrivals, a.course.ends = true)
    (hq : t.step? t.clock = none) (ticket : Ticket) (patience : Nat) :
    History arrivals (t.await ticket patience).2 :=
  (h.awaited he hq ticket _ (Nat.le_add_right _ patience)).1

end

end TimedDispatcher

end Supervisor
