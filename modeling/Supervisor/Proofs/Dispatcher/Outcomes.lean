import Supervisor.Proofs.Dispatcher.History
/-!
# What callers are told

A job that has ended has told its caller how, once, and nobody else. The counters of a dispatcher say
how many jobs have ended and how many have not. All this holds at any moment, also between two events
of one millisecond, and whoever does not care for a result changes nothing.
-/
namespace Supervisor

namespace Ending
variable {α : Type}

/-- What the caller of a job is told, by the way in which the job ends. -/
inductive Tells : Ending α → Except Fault α → Prop
  | value (a : α) : Tells (.value a) (.ok a)
  | fault (f : Fault) : Tells (.fault f) (.error f)
  | text (s : String) : Tells (.panic (.text s)) (.error (.operationPanicked s))
  | fixedText (s : String) : Tells (.panic (.fixedText s)) (.error (.operationPanicked s))
  | other : Tells (.panic .other) (.error (.operationPanicked "unknown panic payload"))

theorem tells_of_result? {e : Ending α} {r : Except Fault α} (h : e.result? = some r) : e.Tells r := by
  cases e with
  | never => cases h
  | value a =>
    cases h
    exact .value a
  | fault f =>
    cases h
    exact .fault f
  | panic p =>
    cases p <;> cases h
    · exact .text _
    · exact .fixedText _
    · exact .other

end Ending

theorem Course.exists_result {α : Type} {c : Course α} (h : c.ends = true) :
    ∃ r, c.ending.result? = some r := by
  unfold ends at h
  cases he : c.ending with
  | never => simp [he] at h
  | value a => exact ⟨_, rfl⟩
  | fault f => exact ⟨_, rfl⟩
  | panic p => exact ⟨_, rfl⟩

namespace TimedDispatcher
variable {α : Type}

/-! ## What the books say -/

section
variable {t : TimedDispatcher α} {arrivals : List (Arrival α)} {limit : Nat}

theorem Serves.clock_le_till {past future : List (Arrival α)} {n : Nat} (h : Serves past t future n)
    {s : Slot α} (hs : s ∈ slots (finish 0 past) past.length future) : t.clock ≤ s.till := by
  have hfirst : ∀ {a : Arrival α} {rest : List (Arrival α)}, future = a :: rest →
      t.clock ≤ (a.slot (finish 0 past) past.length).till := by
    rintro a rest rfl
    cases h with
    | idle h =>
      have hs := a.since_le_till_slot (finish 0 past) past.length
      have hp : t.clock = (a.slot (finish 0 past) past.length).since := h.prompt a rfl
      omega
    | busy h => exact h.pending
  cases future with
  | nil => simp [slots] at hs
  | cons a rest =>
    have ha := hfirst rfl
    rcases List.mem_cons.mp hs with rfl | hs
    · exact ha
    · have hb := slot_bounds hs
      omega

theorem Serves.length_future {past future : List (Arrival α)} {n : Nat} (h : Serves past t future n) :
    future.length = t.queue.held := by
  cases h with
  | idle h => simp [Dispatcher.held, h.waiting, h.running]
  | busy h => simp [Dispatcher.held, h.waiting, h.running]

theorem Serves.clock_lt_till {past future : List (Arrival α)} {n : Nat} (h : Serves past t future n)
    (he : ∀ a ∈ future, a.course.ends = true) (hq : t.step? t.clock = none) {s : Slot α}
    (hs : s ∈ slots (finish 0 past) past.length future) : t.clock < s.till := by
  cases h with
  | idle h =>
    obtain rfl := h.future_eq_nil hq
    simp [slots] at hs
  | busy h =>
    have hlt := h.lt_till (he _ (by simp)) hq
    rcases List.mem_cons.mp hs with rfl | hs
    · exact hlt
    · have hb := slot_bounds hs
      omega

variable {i : Nat} {a : Arrival α} {s : Slot α} {r : Except Fault α}

theorem Kept.ended (h : Kept arrivals t) (hs : s ∈ (timetable arrivals).take t.queue.completed) :
    s.till ≤ t.clock := by
  obtain ⟨past, future, n, rfl, hserves, hb⟩ := h
  have hlen : t.queue.completed = (timetable past).length := hb.completed.trans (length_timetable past).symm
  rw [timetable_split, hlen, List.take_left] at hs
  exact Nat.le_trans (slot_bounds hs).2.2 hserves.finish_le_clock

theorem Kept.unended (h : Kept arrivals t) (he : ∀ a ∈ arrivals, a.course.ends = true)
    (hs : s ∈ (timetable arrivals).drop t.queue.completed) :
    t.clock ≤ s.till ∧ (t.step? t.clock = none → t.clock < s.till) := by
  obtain ⟨past, future, n, rfl, hserves, hb⟩ := h
  have hlen : t.queue.completed = (timetable past).length := hb.completed.trans (length_timetable past).symm
  rw [timetable_split, hlen, List.drop_left] at hs
  exact ⟨hserves.clock_le_till hs,
    fun hq => hserves.clock_lt_till (fun a ha => he a (List.mem_append_right _ ha)) hq hs⟩

theorem Kept.received (h : Kept arrivals t) (ha : arrivals[i]? = some a)
    (hr : a.course.ending.result? = some r) (hg : i ∉ t.gone) :
    t.received i = if i < t.queue.completed then [r] else [] := by
  obtain ⟨past, future, n, rfl, -, hb⟩ := h
  have htold : t.received i = told past i := by
    rcases hb.told i with htold | ⟨hgone, -⟩
    · exact htold
    · exact (hg hgone).elim
  rw [htold, hb.completed]
  by_cases hi : i < past.length
  · rw [if_pos hi]
    exact told_of_getElem? ((List.getElem?_append_left hi).symm.trans ha) hr
  · rw [if_neg hi]
    exact told_of_le (Nat.le_of_not_lt hi)

theorem Kept.not_received (h : Kept arrivals t) (hi : t.queue.completed ≤ i) : t.received i = [] := by
  obtain ⟨past, future, n, -, -, hb⟩ := h
  rw [hb.completed] at hi
  rcases hb.told i with htold | ⟨-, hnone⟩
  · exact htold.trans (told_of_le hi)
  · exact hnone

theorem Kept.pending (h : Kept arrivals t) :
    t.queue.pending = t.queue.held ∧ t.queue.pending + t.queue.completed = arrivals.length := by
  obtain ⟨past, future, n, rfl, hs, hb⟩ := h
  refine ⟨hb.pending, ?_⟩
  rw [hb.pending, ← hs.length_future, hb.completed, List.length_append, Nat.add_comm]

/-- When nothing is due, the jobs that are counted are those whose slots are over. -/
theorem Kept.lt_completed (h : Kept arrivals t) (he : ∀ a ∈ arrivals, a.course.ends = true)
    (hq : t.step? t.clock = none) (hs : (timetable arrivals)[i]? = some s) :
    i < t.queue.completed ↔ s.till ≤ t.clock := by
  constructor
  · intro hi
    exact h.ended (List.mem_of_getElem? ((List.getElem?_take_of_lt hi).trans hs))
  · intro hle
    apply Nat.lt_of_not_le
    intro hi
    have hmem : s ∈ (timetable arrivals).drop t.queue.completed := by
      refine List.mem_of_getElem? (i := i - t.queue.completed) ?_
      rw [List.getElem?_drop, Nat.add_sub_cancel' hi]
      exact hs
    exact Nat.not_lt_of_le hle ((h.unended he hmem).2 hq)

/-! ## Callers who wait -/

theorem lookup_eq_head? {β : Type} (l : List (Ticket × β)) (i : Ticket) :
    l.lookup i = ((l.filter (·.1 == i)).map (·.2)).head? := by
  induction l with
  | nil => rfl
  | cons e l ih =>
    obtain ⟨j, b⟩ := e
    by_cases h : i = j
    · simp [h]
    · have hij : (i == j) = false := beq_eq_false_iff_ne.mpr h
      have hji : (j == i) = false := beq_eq_false_iff_ne.mpr (Ne.symm h)
      rw [List.lookup_cons, hij, List.filter_cons_of_neg (by simp [hji]), ih]

theorem result?_of_received (ho : t.queue.closed = false) (i : Ticket) :
    t.result? i = (t.received i).getLast? := by
  have hl : t.results.lookup i = (t.received i).getLast? := by
    rw [lookup_eq_head?, TimedDispatcher.received, List.filter_reverse, List.map_reverse,
      List.getLast?_reverse]
  rw [result?, hl, ho]
  cases (t.received i).getLast? <;> rfl

theorem Kept.result? (h : Kept arrivals t) (ha : arrivals[i]? = some a)
    (hr : a.course.ending.result? = some r) (hg : i ∉ t.gone) :
    t.result? i = if i < t.queue.completed then some r else none := by
  have ho : t.queue.closed = false := by
    obtain ⟨past, future, n, -, hserves, -⟩ := h
    exact hserves.isOpen
  rw [result?_of_received ho, h.received ha hr hg]
  split <;> rfl

/-- While a job has not ended, some job is running, and it is the next one to be counted. -/
theorem Kept.due (h : Kept arrivals t) (he : ∀ a ∈ arrivals, a.course.ends = true)
    (hq : t.step? t.clock = none) (hs : (timetable arrivals)[i]? = some s) (hlt : t.clock < s.till) :
    ∃ s', (timetable arrivals)[t.queue.completed]? = some s' ∧ t.due? = some s'.till ∧
      t.clock ≤ s'.till ∧ s'.till ≤ s.till := by
  have hi : t.queue.completed ≤ i := by
    apply Nat.le_of_not_lt
    intro hi
    exact Nat.not_lt_of_le ((h.lt_completed he hq hs).mp hi) hlt
  obtain ⟨past, future, n, rfl, hserves, hb⟩ := h
  rw [hb.completed] at hi ⊢
  cases hserves with
  | idle h =>
    obtain rfl := h.future_eq_nil hq
    rw [List.append_nil] at hs
    have hbound := List.getElem?_eq_some_iff.mp hs
    obtain ⟨hl, -⟩ := hbound
    rw [length_timetable] at hl
    exact (Nat.not_lt_of_le hi hl).elim
  | @busy b future h =>
    have hb' : b.course.ends = true := he b (by simp)
    rw [timetable_append] at hs ⊢
    refine ⟨b.slot (finish 0 past) past.length, ?_, ?_, h.pending, ?_⟩
    · rw [List.getElem?_append_right (by simp), length_timetable, Nat.sub_self]
      rfl
    · rw [due?, h.current]
      exact Course.due?_eq_some hb' _
    · rw [List.getElem?_append_right (by simpa using hi)] at hs
      rcases List.mem_cons.mp (List.mem_of_getElem? hs) with rfl | hmem
      · exact Nat.le_refl _
      · have hbound := slot_bounds hmem
        omega

@[simp] theorem gone_steps (t : TimedDispatcher α) (limit n : Nat) :
    (t.steps limit n).gone = t.gone := by
  induction n generalizing t with
  | zero => rfl
  | succ n ih =>
    simp only [TimedDispatcher.steps]
    split
    · next t' ht =>
      rw [ih]
      obtain ⟨ticket, c, since, d, -, -, -, -, rfl⟩ | ⟨c, queue, -, rfl⟩ := step?_cases ht
      · simp
      · rfl
    · rfl

@[simp] theorem gone_runTo (t : TimedDispatcher α) (limit : Nat) : (t.runTo limit).gone = t.gone :=
  gone_steps t limit t.bound

/-- Who waits long enough is told at the moment at which the own job ends. -/
theorem History.awaitSteps (h : History arrivals t) (he : ∀ a ∈ arrivals, a.course.ends = true)
    (hq : t.step? t.clock = none) (ha : arrivals[i]? = some a)
    (hs : (timetable arrivals)[i]? = some s) (hr : a.course.ending.result? = some r)
    (hg : i ∉ t.gone) (hl : t.clock ≤ limit) {n : Nat} (hn : arrivals.length ≤ t.queue.completed + n) :
    if s.till ≤ limit then
      (awaitSteps i limit n t).1 = some r ∧ (awaitSteps i limit n t).2.clock = max t.clock s.till
    else (awaitSteps i limit n t).1 = none := by
  induction n generalizing t with
  | zero =>
    have hi : i < t.queue.completed := by
      obtain ⟨hi, -⟩ := List.getElem?_eq_some_iff.mp ha
      omega
    have hd := ((h.kept he).lt_completed he hq hs).mp hi
    have hresult := (h.kept he).result? ha hr hg
    rw [if_pos hi] at hresult
    rw [if_pos (Nat.le_trans hd hl)]
    simp [TimedDispatcher.awaitSteps, hresult, Nat.max_eq_left hd]
  | succ n ih =>
    have hiff := (h.kept he).lt_completed he hq hs
    have hresult := (h.kept he).result? ha hr hg
    by_cases hi : i < t.queue.completed
    · have hd := hiff.mp hi
      rw [if_pos hi] at hresult
      rw [if_pos (Nat.le_trans hd hl)]
      simp [TimedDispatcher.awaitSteps, hresult, Nat.max_eq_left hd]
    · have hd : t.clock < s.till := Nat.lt_of_not_le (hi ∘ hiff.mpr)
      rw [if_neg hi] at hresult
      obtain ⟨s', hs', hdue, hle, hle'⟩ := (h.kept he).due he hq hs hd
      by_cases hd' : s'.till ≤ limit
      · -- The running job ends first; it is counted then, so fewer jobs are left.
        obtain ⟨hrun, hclock, hquiet⟩ := h.runTo he hle
        have hmore := ((hrun.kept he).lt_completed he hquiet hs').mpr (Nat.le_of_eq hclock.symm)
        have hnext := ih hrun hquiet (by rwa [gone_runTo]) (hclock.symm ▸ hd') (by omega)
        rw [hclock, Nat.max_eq_right hle'] at hnext
        simp only [TimedDispatcher.awaitSteps, hresult, hdue, if_pos hd']
        rw [Nat.max_eq_right (Nat.le_of_lt hd)]
        exact hnext
      · rw [if_neg (by omega)]
        simp [TimedDispatcher.awaitSteps, hresult, hdue, hd']

end

/-! ## What callers and counters say -/

/-- The first jobs have ended, as many as are counted as completed; the others are held, and they are
counted as pending. One more would be accepted, and its caller gets the next ticket. -/
structure Counted (arrivals : List (Arrival α)) (t : TimedDispatcher α) : Prop where
  next : ∀ c, (t.queue.submit c).1 = some arrivals.length
  ended : ∀ s ∈ (timetable arrivals).take t.queue.completed, s.till ≤ t.clock
  unended : ∀ s ∈ (timetable arrivals).drop t.queue.completed,
    t.clock ≤ s.till ∧ (t.step? t.clock = none → t.clock < s.till)
  held : t.queue.pending = t.queue.held
  total : t.queue.pending + t.queue.completed = arrivals.length

/-- A caller who waits has the own result from the end of the own job on, once, and nothing else. -/
structure Informed (t : TimedDispatcher α) (i : Ticket) (s : Slot α) (r : Except Fault α) : Prop where
  now : t.received i = if i < t.queue.completed then [r] else []
  view : t.result? i = if i < t.queue.completed then some r else none
  later : ∀ limit, t.clock ≤ limit → (t.runTo limit).received i = if s.till ≤ limit then [r] else []
  awaited : t.step? t.clock = none → ∀ patience,
    if s.till ≤ t.clock + patience then
      (t.await i patience).1 = some r ∧ (t.await i patience).2.clock = max t.clock s.till
    else (t.await i patience).1 = none

section
variable {t : TimedDispatcher α} {arrivals : List (Arrival α)} {limit : Nat}

theorem Kept.next (h : Kept arrivals t) (c : Course α) : (t.queue.submit c).1 = some arrivals.length := by
  obtain ⟨past, future, n, rfl, hs, -⟩ := h
  simp only [Dispatcher.submit, hs.isOpen, Bool.false_eq_true, if_false]
  rw [hs.accepted]

theorem Kept.counted (h : Kept arrivals t) (he : ∀ a ∈ arrivals, a.course.ends = true) :
    Counted arrivals t where
  next := h.next
  ended _ hs := h.ended hs
  unended _ hs := h.unended he hs
  held := h.pending.1
  total := h.pending.2

theorem History.informed (h : History arrivals t) (he : ∀ a ∈ arrivals, a.course.ends = true) {i : Nat}
    {a : Arrival α} {s : Slot α} {r : Except Fault α} (ha : arrivals[i]? = some a)
    (hs : (timetable arrivals)[i]? = some s) (hr : a.course.ending.result? = some r) (hg : i ∉ t.gone) :
    Informed t i s r where
  now := (h.kept he).received ha hr hg
  view := (h.kept he).result? ha hr hg
  later limit hl := by
    obtain ⟨hrun, hclock, hquiet⟩ := h.runTo he hl
    have hiff := (hrun.kept he).lt_completed he hquiet hs
    rw [hclock] at hiff
    rw [(hrun.kept he).received ha hr (by rwa [gone_runTo])]
    simp only [hiff]
  awaited hq patience := by
    have hpending := (h.kept he).pending
    refine h.awaitSteps he hq ha hs hr hg (Nat.le_add_right _ _) ?_
    omega

/-- When the last slot is over, nothing is pending. -/
theorem History.drained (h : History arrivals t) (he : ∀ a ∈ arrivals, a.course.ends = true)
    (hl : t.clock ≤ limit) (hall : ∀ s ∈ timetable arrivals, s.till ≤ limit) :
    (t.runTo limit).queue.pending = 0 ∧ (t.runTo limit).queue.completed = arrivals.length := by
  obtain ⟨hrun, hclock, hquiet⟩ := h.runTo he hl
  have htotal := (hrun.kept he).pending.2
  suffices hdone : arrivals.length ≤ (t.runTo limit).queue.completed by omega
  apply Nat.le_of_not_lt
  intro hlt
  -- The next job to be counted would have ended by now.
  have hlt' : (t.runTo limit).queue.completed < (timetable arrivals).length := by rwa [length_timetable]
  have hnext := List.getElem?_eq_getElem hlt'
  have hiff := (hrun.kept he).lt_completed he hquiet hnext
  rw [hclock] at hiff
  exact Nat.lt_irrefl _ (hiff.mpr (hall _ (List.getElem_mem hlt')))

end

/-- Each caller who waits is told how the own job ended, once and at that moment, whatever the other
jobs do and whoever has stopped waiting; nobody is told before. At every moment the dispatcher counts
the jobs that have ended and those that have not, and in the end none are left. -/
theorem callers_told {arrivals : List (Arrival α)} {t : TimedDispatcher α} (h : History arrivals t)
    (he : ∀ a ∈ arrivals, a.course.ends = true) :
    Counted arrivals t ∧ (∀ i, t.queue.completed ≤ i → t.received i = []) ∧
      (∀ i a, arrivals[i]? = some a → i ∉ t.gone → ∃ s r, (timetable arrivals)[i]? = some s ∧
        a.course.ending.Tells r ∧ Informed t i s r) ∧
      ∀ limit, t.clock ≤ limit → (∀ s ∈ timetable arrivals, s.till ≤ limit) →
        (t.runTo limit).queue.pending = 0 ∧ (t.runTo limit).queue.completed = arrivals.length := by
  refine ⟨(h.kept he).counted he, fun i hi => (h.kept he).not_received hi, ?_,
    fun limit hl hall => h.drained he hl hall⟩
  intro i a ha hg
  have hi : i < (timetable arrivals).length := by
    obtain ⟨hi, -⟩ := List.getElem?_eq_some_iff.mp ha
    rwa [length_timetable]
  obtain ⟨r, hr⟩ := Course.exists_result (he a (List.mem_of_getElem? ha))
  have hs := List.getElem?_eq_getElem hi
  exact ⟨_, r, hs, Ending.tells_of_result? hr, h.informed he ha hs hr hg⟩

/-- Four jobs, of which the first panics at once and the third in the middle, and whose second caller
leaves while the job is running. -/
theorem callers_told_one_leaves : ∃ (arrivals : List (Arrival Nat)) (t : TimedDispatcher Nat),
    History arrivals t ∧ (∀ a ∈ arrivals, a.course.ends = true) ∧ t.gone = [1] ∧
      t.queue.pending = 1 ∧ t.queue.completed = 3 ∧ t.received 1 = [] ∧
      t.received 2 = [.error (.operationPanicked "unknown panic payload")] ∧
      Counted arrivals t ∧ (∀ i, t.queue.completed ≤ i → t.received i = []) ∧
      (∀ i a, arrivals[i]? = some a → i ∉ t.gone → ∃ s r, (timetable arrivals)[i]? = some s ∧
        a.course.ending.Tells r ∧ Informed t i s r) ∧
      ∀ limit, t.clock ≤ limit → (∀ s ∈ timetable arrivals, s.till ≤ limit) →
        (t.runTo limit).queue.pending = 0 ∧ (t.runTo limit).queue.completed = arrivals.length := by
  have three := (History.start 0 : History (α := Nat) [] _)
    |>.submits { delay := 9, ending := .panic (.text "early"), early := true } (by decide)
    |>.submits { delay := 7, ending := .value 5 } (by decide)
    |>.submits { delay := 2, ending := .panic .other } (by decide)
    |>.sleeps (by decide) 3
  have four := three.submits { delay := 4, ending := .fault (.internal "late") } (by decide)
  have history := (four.abandon 1).runTo (by decide) (show _ ≤ 10 by decide)
  exact ⟨_, _, history.1, by decide, rfl, rfl, rfl, rfl, rfl, callers_told history.1 (by decide)⟩

end TimedDispatcher

end Supervisor
