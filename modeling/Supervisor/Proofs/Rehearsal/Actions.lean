import Supervisor.Proofs.Rehearsal.WaitingVisits
/-!
# What can happen in a rehearsal

Tasks run in any order, time passes when none can run, and callers come and do what they like. A
rehearsal in which all this has happened is still in order: every coordinator can take its next turn,
and no alarm is set for someone who has not come yet.
-/
namespace Supervisor.Rehearsal

inductive Action
  | run (t : Task)
  /-- The clock moves to the next alarm. -/
  | ring
  /-- The clock moves, but not as far as the next alarm. -/
  | pass (time : Nat)
  | visit (s : Seat) (purpose : Purpose) (wait : Duration)
  | request (s : Seat) (op : Operation)
  /-- An operation is wanted whose result nobody waits for. -/
  | submit (s : Seat) (op : Operation)
  | crash (s : Seat) (id : ServerId)
  | setDependent (s : Seat) (d : DependentId)
  | recast (s : Seat) (servers : List ServerScript) (tool : Option ToolScript) (dependent : Dependent)

/-- Time passes only when nothing can run. -/
def Allows (r : Rehearsal) : Action → Prop
  | .run t => t ∈ r.runnable
  | .ring => r.runnable = []
  | .pass time => r.runnable = [] ∧ ∀ a ∈ r.alarms, time < a.time
  | _ => True

instance (r : Rehearsal) : (a : Action) → Decidable (r.Allows a)
  | .run t => inferInstanceAs (Decidable (t ∈ r.runnable))
  | .ring => inferInstanceAs (Decidable (r.runnable = []))
  | .pass time => inferInstanceAs (Decidable (r.runnable = [] ∧ ∀ a ∈ r.alarms, time < a.time))
  | .visit _ _ _ | .request _ _ | .submit _ _ | .crash _ _ | .setDependent _ _ | .recast _ _ _ _ =>
    inferInstanceAs (Decidable True)

def act (r : Rehearsal) : Action → Rehearsal
  | .run t => ({ r with runnable := r.runnable.erase t }).runTask t
  | .ring =>
    match r.nextAlarm? with
    | some t => r.ring (max r.clock t)
    | none => r
  | .pass time => { r with clock := max r.clock time }
  | .visit s purpose wait => (r.visit s purpose wait).2
  | .request s op => (r.request s op).2
  | .submit s op => (r.submit s op).2
  | .crash s id => r.serverDown s id
  | .setDependent s d =>
    r.modifyPlayer s fun p => { p with coordinator := p.coordinator.setDependent d }
  | .recast s servers tool dependent =>
    r.modifyPlayer s fun p => { p with servers, tool, dependent }

def actAll (r : Rehearsal) (acts : List Action) : Rehearsal := acts.foldl act r

def AllowsAll : Rehearsal → List Action → Prop
  | _, [] => True
  | r, a :: rest => r.Allows a ∧ (r.act a).AllowsAll rest

instance decidableAllowsAll : (r : Rehearsal) → (acts : List Action) → Decidable (r.AllowsAll acts)
  | _, [] => inferInstanceAs (Decidable True)
  | r, a :: rest =>
    have := decidableAllowsAll (r.act a) rest
    inferInstanceAs (Decidable (r.Allows a ∧ (r.act a).AllowsAll rest))

/-- Tasks that run in the order in which they were woken are one way for things to happen. -/
theorem runTasks_eq_actAll (k : Nat) (r : Rehearsal) :
    ∃ acts, r.AllowsAll acts ∧ r.runTasks k = r.actAll acts := by
  induction k generalizing r with
  | zero => exact ⟨[], trivial, rfl⟩
  | succ k ih =>
    simp only [runTasks]
    cases hr : r.runnable with
    | cons t rest =>
      have hact : ({ r with runnable := rest }).runTask t = r.act (.run t) := by
        simp only [act, hr, List.erase_cons_head]
      simp only [hact]
      obtain ⟨acts, hallowed, heq⟩ := ih (r.act (.run t))
      exact ⟨.run t :: acts, ⟨by simp [Allows, hr], hallowed⟩, heq⟩
    | nil =>
      cases hnext : r.nextAlarm? with
      | none => exact ⟨[], trivial, rfl⟩
      | some t =>
        simp only
        by_cases ht : t ≤ r.clock
        · have hact : r.ring r.clock = r.act .ring := by
            simp only [act, hnext, Nat.max_eq_left ht]
          rw [if_pos ht, hact]
          obtain ⟨acts, hallowed, heq⟩ := ih (r.act .ring)
          exact ⟨.ring :: acts, ⟨hr, hallowed⟩, heq⟩
        · rw [if_neg ht]
          exact ⟨[], trivial, rfl⟩

section
variable {r : Rehearsal} {a : Action} {n : Nat}

/-- Nothing that happens to others, while the clock stands still, does anything to a visit. -/
theorem spares_act (hrun : a ≠ .run (.visit n)) (hring : a ≠ .ring)
    (hpass : ∀ time, a ≠ .pass time) : Spares n r (r.act a) := by
  cases a with
  | run t =>
    have ht : t ≠ .visit n := by
      rintro rfl
      exact hrun rfl
    exact (spares_erase r ht).trans (spares_runTask _ ht)
  | ring => exact (hring rfl).elim
  | pass time => exact (hpass time rfl).elim
  | visit s purpose wait => exact spares_visit n r s purpose wait
  | request s op => exact spares_request n r s op
  | submit s op => exact spares_submit n r s op
  | crash s id => exact spares_serverDown n r s id
  | setDependent s d => exact spares_modifyPlayer n r s (fun _ => rfl) fun _ hs => hs.congr rfl rfl
  | recast s servers tool dependent =>
    exact spares_modifyPlayer n r s (fun _ => rfl) fun _ hs => hs

/-! ## Alarms -/

theorem foldl_min_alarms (m : Nat) (alarms : List Alarm) :
    alarms.foldl (fun m a =>
      match m with
      | some t => some (min t a.time)
      | none => some a.time) (some m) = some ((alarms.map Alarm.time).foldl min m) := by
  induction alarms generalizing m with
  | nil => rfl
  | cons a alarms ih => exact ih (min m a.time)

theorem nextAlarm?_eq_min? (r : Rehearsal) : r.nextAlarm? = (r.alarms.map Alarm.time).min? := by
  unfold nextAlarm?
  cases r.alarms with
  | nil => rfl
  | cons a alarms => exact foldl_min_alarms a.time alarms

theorem nextAlarm?_le {x : Alarm} (hx : x ∈ r.alarms) :
    ∃ t, r.nextAlarm? = some t ∧ t ≤ x.time := by
  rw [nextAlarm?_eq_min?]
  have hmem : x.time ∈ r.alarms.map Alarm.time := List.mem_map_of_mem hx
  cases hmin : (r.alarms.map Alarm.time).min? with
  | none => simp [List.min?_eq_none_iff.mp hmin] at hmem
  | some t => exact ⟨t, rfl, (List.min?_eq_some_iff.mp hmin).2 _ hmem⟩

/-- The alarms that ring when the clock moves to `time`. -/
def due (r : Rehearsal) (time : Nat) : List Alarm := r.alarms.filter fun x => x.time ≤ time

/-- The clock has moved, and nobody has heard the alarms yet. -/
def advance (r : Rehearsal) (time : Nat) : Rehearsal :=
  { r with clock := max r.clock time, alarms := r.alarms.filter fun x => !decide (x.time ≤ time) }

theorem ring_eq (r : Rehearsal) (time : Nat) :
    r.ring time = (r.due time).foldl (fun r x => r.deliver x.delivery) (r.advance time) := by
  simp only [ring, List.partition_eq_filter_filter]
  rfl

theorem mem_alarms_of_due {x : Alarm} {time : Nat} (hx : x ∈ r.due time) : x ∈ r.alarms :=
  (List.mem_filter.mp hx).1

theorem mem_alarms_of_advance {x : Alarm} {time : Nat} (hx : x ∈ (r.advance time).alarms) :
    x ∈ r.alarms :=
  (List.mem_filter.mp hx).1

/-! ## Order -/

/-- Every coordinator can take its next turn, and no alarm is for someone who has not come yet. -/
structure Orderly (r : Rehearsal) : Prop where
  sound : r.Sound
  expected : ∀ x ∈ r.alarms, ∀ n, x.concerns n = true → n < r.visits.length

/-- Who has not come yet has nothing to do. -/
theorem runVisit_of_le (h : r.visits.length ≤ n) : r.runVisit n = r := by
  simp only [runVisit, List.getElem?_eq_none h]

/-- What spares all those who have not come yet keeps the order. -/
theorem Orderly.of_spares {r' : Rehearsal} (h : r.Orderly)
    (hr : ∀ n, r.visits.length ≤ n → Spares n r r') : r'.Orderly := by
  refine ⟨(hr _ (Nat.le_refl _)).sound h.sound, fun x hx n hn => ?_⟩
  by_cases hlt : n < r.visits.length
  · exact Nat.lt_of_lt_of_le hlt (hr _ (Nat.le_refl _)).visitors
  · have hmem : x ∈ r.alarms := ((hr n (Nat.le_of_not_lt hlt)).alarms x hn).mp hx
    exact absurd (h.expected x hmem n hn) hlt

theorem Orderly.of_alarms (h : r.Orderly) (clock : Nat) {alarms : List Alarm}
    (ha : ∀ x ∈ alarms, x ∈ r.alarms) (runnable : List Task) :
    Orderly { r with clock, alarms, runnable } :=
  ⟨h.sound, fun x hx => h.expected x (ha x hx)⟩

theorem Orderly.ring (h : r.Orderly) (time : Nat) : (r.ring time).Orderly := by
  have hadvance : (r.advance time).Orderly :=
    h.of_alarms _ (fun _ hx => mem_alarms_of_advance hx) r.runnable
  rw [ring_eq]
  refine hadvance.of_spares fun n hn => spares_foldl_deliver (fun x hx y hy => ?_) _
  have hlt := h.expected x (mem_alarms_of_due hx) n (by simp [Alarm.concerns, hy])
  exact absurd hlt (Nat.not_lt.mpr hn)

theorem Orderly.act (h : r.Orderly) (a : Action) : (r.act a).Orderly := by
  -- A number that nobody has yet may have been woken; it is not spared, but nothing happens.
  by_cases hrun : ∃ m, a = .run (.visit m) ∧ r.visits.length ≤ m
  · obtain ⟨m, rfl, hm⟩ := hrun
    have hidle : r.act (.run (.visit m)) = { r with runnable := r.runnable.erase (.visit m) } :=
      runVisit_of_le hm
    rw [hidle]
    exact h.of_alarms r.clock (fun _ hx => hx) _
  cases a with
  | ring =>
    simp only [Rehearsal.act]
    split
    · exact h.ring _
    · exact h
  | pass time => exact h.of_alarms _ (fun _ hx => hx) r.runnable
  | run t =>
    refine h.of_spares fun n hn => spares_act ?_ (by simp) (by simp)
    rintro ⟨⟩
    exact hrun ⟨n, rfl, hn⟩
  | _ => exact h.of_spares fun n _ => spares_act (by simp) (by simp) (by simp)

theorem Orderly.actAll (h : r.Orderly) (acts : List Action) : (r.actAll acts).Orderly := by
  induction acts generalizing r with
  | nil => exact h
  | cons a acts ih => exact ih (h.act a)

/-- Nothing has happened yet that anybody waits for: no alarm is set, and no operation runs. -/
structure Untouched (r : Rehearsal) : Prop where
  quiet : r.alarms = []
  idle : ∀ s p, r.player? s = some p →
    p.coordinator.stage = none ∧ p.coordinator.queue.running = none

theorem Untouched.orderly (h : r.Untouched) : r.Orderly := by
  refine ⟨fun s p hp => ?_, fun x hx => ?_⟩
  · obtain ⟨hstage, hrunning⟩ := h.idle s p hp
    simp only [Coordinator.point, hstage]
    exact ⟨hstage, hrunning⟩
  · simp [h.quiet] at hx

end

end Supervisor.Rehearsal
