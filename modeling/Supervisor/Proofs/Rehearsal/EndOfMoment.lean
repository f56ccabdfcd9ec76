import Supervisor.Proofs.Rehearsal.RemainingWork
/-!
# How a moment ends

At one moment only so much can happen if nobody comes: a coordinator gets on with its work, a caller
is told something, an alarm that is due rings, or a task has run for which there was nothing to do.
So time passes, and what has to happen before some alarm has rung does happen.
-/
namespace Supervisor.Rehearsal

section
variable {r r' r'' : Rehearsal} {s : Seat} {n : Nat} {v : Visit}

/-! ## What a caller does -/

theorem sum_map_modify {α : Type} (f : α → α) (g : α → Nat) {l : List α} {n : Nat} {a : α}
    (h : l[n]? = some a) : ((l.modify n f).map g).sum + g a = (l.map g).sum + g (f a) := by
  induction l generalizing n with
  | nil => simp at h
  | cons b l ih =>
    cases n with
    | zero =>
      obtain rfl : b = a := by simpa using h
      simp only [List.modify_zero_cons, List.map_cons, List.sum_cons]
      omega
    | succ n =>
      have hrest := ih (n := n) (by simpa using h)
      simp only [List.modify_succ_cons, List.map_cons, List.sum_cons]
      omega

theorem visitToil_modifyVisit (hv : r.visits[n]? = some v) (f : Visit → Visit) :
    (r.modifyVisit n f).visitToil + v.toil = r.visitToil + (f v).toil :=
  sum_map_modify f Visit.toil hv

/-- A caller gets on, or it waits. -/
def GetsOn (r r' : Rehearsal) : Prop := Rests r r' ∨ Advances r r'

theorem GetsOn.lightens (h : GetsOn r r') : Lightens r r' := by
  rcases h with h | h
  · exact h.toLightens
  · exact h.toLightens

theorem GetsOn.after (h' : GetsOn r' r'') (h : Rests r r') : GetsOn r r'' := by
  rcases h' with h' | h'
  · exact .inl (h.trans h')
  · exact .inr (h'.after h.toLightens)

theorem rests_publish (r : Rehearsal) (notice : Notice) : Rests r (r.publish notice) :=
  rests_of_eq rfl rfl rfl rfl rfl

theorem rests_foldl_publish (r : Rehearsal) (notices : List Notice) :
    Rests r (notices.foldl publish r) := by
  induction notices generalizing r with
  | nil => exact rests_refl r
  | cons x notices ih => exact (rests_publish r x).trans (ih _)

theorem visits_foldl_publish (r : Rehearsal) (notices : List Notice) :
    (notices.foldl publish r).visits = r.visits := by
  induction notices generalizing r with
  | nil => rfl
  | cons x notices ih => exact ih _

/-- An alarm that is set for later does not ring now. -/
theorem rests_setAlarm (r : Rehearsal) {time : Nat} (ht : r.clock < time) (d : Delivery) :
    Rests r (r.setAlarm time d) where
  clock := rfl
  toil := Nat.le_refl _
  visitToil := Nat.le_refl _
  due := by
    have hlate : (r.alarms ++ [Alarm.mk time d]).filter (fun x => x.time ≤ r.clock) =
        r.due r.clock := by
      simp [due, ht]
    exact Nat.le_of_eq (congrArg List.length hlate)
  runnable := rfl

theorem rests_filter (r : Rehearsal) (q : Alarm → Bool) :
    Rests r { r with alarms := r.alarms.filter q } where
  clock := rfl
  toil := Nat.le_refl _
  visitToil := Nat.le_refl _
  due := (List.filter_sublist.filter _).length_le
  runnable := rfl

theorem lightens_modifyVisit (hv : r.visits[n]? = some v) {f : Visit → Visit}
    (hf : (f v).toil ≤ v.toil) : Lightens r (r.modifyVisit n f) := by
  have hmodify := visitToil_modifyVisit hv f
  exact ⟨rfl, Nat.le_refl _, by omega⟩

theorem rests_modifyVisit (hv : r.visits[n]? = some v) {f : Visit → Visit}
    (hf : (f v).toil ≤ v.toil) : Rests r (r.modifyVisit n f) :=
  ⟨lightens_modifyVisit hv hf, Nat.le_refl _, rfl⟩

theorem advances_modifyVisit (hv : r.visits[n]? = some v) {f : Visit → Visit}
    (hf : (f v).toil < v.toil) : Advances r (r.modifyVisit n f) := by
  have hmodify := visitToil_modifyVisit hv f
  exact ⟨lightens_modifyVisit hv (Nat.le_of_lt hf), by omega⟩

theorem advances_give (hv : r.visits[n]? = some v) (hpos : 0 < v.toil) (x : Verdict) :
    Advances r (r.give n x) :=
  advances_modifyVisit hv hpos

theorem advances_conclude (hv : r.visits[n]? = some v) (hpos : 0 < v.toil) (s : Seat) (x : Sequel) :
    Advances r (r.conclude n s x) := by
  cases x with
  | verdict x => exact advances_give hv hpos x
  | noted a x =>
    have hnoted : (r.note s a).visits[n]? = some v := hv
    exact (advances_give hnoted hpos _).after (rests_note r s a).toLightens
  | worked id x => exact advances_give hv hpos _

theorem getsOn_engage (hv : r.visits[n]? = some v) (hpos : 0 < v.toil) (s : Seat)
    (x : Option (Nat × Sequel)) : GetsOn r (r.engage n s x) := by
  unfold engage
  split
  · exact .inl (rests_refl r)
  · exact .inr (advances_conclude hv hpos s _)
  · next d x hd =>
    have hlater : r.clock < r.clock + d := by
      have hne : d ≠ 0 := hd
      omega
    exact .inl (rests_setAlarm r hlater _)

theorem getsOn_useServer (hv : r.visits[n]? = some v) (hpos : 0 < v.toil) (w : Visit)
    (id : ServerId) : GetsOn r (r.useServer n w id) := by
  unfold useServer
  split
  · next method params hp hpurpose =>
    have hnoted : (r.note w.seat (.request id method)).visits[n]? = some v := hv
    exact (getsOn_engage hnoted hpos _ _).after (rests_note r _ _)
  · exact getsOn_engage hv hpos _ _
  · exact .inr (advances_give hv hpos _)

theorem getsOn_stopHandle (hv : r.visits[n]? = some v) (hpos : 0 < v.toil) (s : Seat) :
    GetsOn r (r.stopHandle n s) := by
  unfold stopHandle
  split
  · exact .inl (rests_refl r)
  · next p hp =>
    split
    · exact .inr (advances_give hv hpos _)
    · next id hid =>
      have hdown : ((r.note s (.stop id)).serverDown s id).visits[n]? = some v := by
        have hvisits : ((r.note s (.stop id)).serverDown s id).visits = r.visits := by
          unfold serverDown modifyPlayer
          split
          · cases s <;> rfl
          · rfl
        rw [hvisits, hv]
      exact (getsOn_engage hdown hpos s _).after
        ((rests_note r s _).trans (rests_serverDown _ s id))

/-- Who is told to wait has time left. -/
theorem lt_of_admission {c : Coordinator} {now deadline : Nat} {wait : Duration}
    (h : c.admission now deadline wait = .wait) : now < deadline := by
  unfold Coordinator.admission at h
  split at h
  · split at h <;> cases h
  · cases h
  · cases h
  all_goals
    split at h
    · cases h
    · split at h
      · cases h
      · omega

theorem lt_of_step {g : Guest} {c : Coordinator} {now : Nat} {notices : List Notice}
    (h : g.step Verdict.ofFault c now .waiting = (.waiting, notices)) : now < g.deadline := by
  cases hadmission : c.admission now g.deadline g.wait with
  | wait => exact lt_of_admission hadmission
  | enter id | refuse f => simp [Guest.step, Guest.look, hadmission, Stay.ofAdmission] at h

theorem getsOn_look (hv : r.visits[n]? = some v) (hstay : v.stay = .waiting) :
    GetsOn r (r.look n v) := by
  unfold look
  cases r.player? v.seat with
  | none => exact .inl (rests_refl r)
  | some p =>
    have htoil : v.toil = 2 := by simp [Visit.toil, hstay]
    simp only [hstay]
    cases hstep : v.guest.step Verdict.ofFault p.coordinator r.clock .waiting with
    | mk stay notices =>
      have hseen : Rests r (notices.foldl publish
          { r with alarms := r.alarms.filter fun a => !a.isDeadlineOf n }) :=
        (rests_filter r _).trans (rests_foldl_publish _ notices)
      have hthere : (notices.foldl publish
          { r with alarms := r.alarms.filter fun a => !a.isDeadlineOf n }).visits[n]? = some v := by
        rw [visits_foldl_publish, hv]
      simp only
      generalize notices.foldl publish
        { r with alarms := r.alarms.filter fun a => !a.isDeadlineOf n } = seen at hseen hthere ⊢
      have hlooked (f : Visit → Visit) : (seen.modifyVisit n f).visits[n]? = some (f v) := by
        simp [modifyVisit, hthere]
      cases stay with
      | waiting =>
        have hwaits : Rests seen
            (seen.modifyVisit n fun v => { v with stay := .waiting, watching := true }) :=
          rests_modifyVisit hthere (by simp [Visit.toil, hstay])
        have hlater : (seen.modifyVisit n fun v =>
            { v with stay := .waiting, watching := true }).clock < v.deadline := by
          have hclock : seen.clock = r.clock := hseen.clock
          exact hclock ▸ lt_of_step hstep
        exact .inl ((hseen.trans hwaits).trans (rests_setAlarm _ hlater _))
      | working id =>
        have hadmitted : Advances seen
            (seen.modifyVisit n fun v => { v with stay := .working id, watching := false }) :=
          advances_modifyVisit hthere (by simp [Visit.toil, hstay])
        have hused := getsOn_useServer
          (hlooked fun v => { v with stay := .working id, watching := false }) Nat.one_pos v id
        exact .inr ((hadmitted.trans hused.lightens).after hseen.toLightens)
      | left x =>
        have hrefused : Advances seen
            (seen.modifyVisit n fun v => { v with stay := .left x, watching := false }) :=
          advances_modifyVisit hthere (by simp [Visit.toil, hstay])
        exact .inr (hrefused.after hseen.toLightens)

theorem getsOn_runVisit (r : Rehearsal) (n : Nat) : GetsOn r (r.runVisit n) := by
  unfold runVisit
  cases hv : r.visits[n]? with
  | none => exact .inl (rests_refl r)
  | some v =>
    simp only
    split
    · exact .inl (rests_refl r)
    · next x hin hleft =>
      have hpos : 0 < v.toil := by
        cases hstay : v.stay with
        | waiting | working => simp [Visit.toil, hstay]
        | left answer => exact (hleft answer hstay).elim
      exact .inr (advances_conclude hv hpos _ x)
    · exact .inl (rests_refl r)
    · exact .inl (rests_refl r)
    · next hstay _ _ =>
      exact getsOn_stopHandle hv (by simp [Visit.toil, hstay]) _
    · next hstay _ _ _ => exact getsOn_look hv hstay

/-! ## What an alarm brings -/

theorem visits_wake (r : Rehearsal) (t : Task) : (r.wake t).visits = r.visits := by
  unfold wake
  split <;> rfl

theorem alarms_wake (r : Rehearsal) (t : Task) : (r.wake t).alarms = r.alarms := by
  unfold wake
  split <;> rfl

theorem clock_wake (r : Rehearsal) (t : Task) : (r.wake t).clock = r.clock := by
  unfold wake
  split <;> rfl

theorem lightens_wake (r : Rehearsal) (t : Task) : Lightens r (r.wake t) where
  clock := clock_wake r t
  toil := Nat.le_of_eq (toil_wake r t)
  visitToil := Nat.le_of_eq (by rw [visitToil, visits_wake, visitToil])

/-- What an alarm brings is looked at later, by somebody who is woken. -/
theorem lightens_deliver (r : Rehearsal) (d : Delivery) : Lightens r (r.deliver d) := by
  cases d with
  | promise s x =>
    have hset : Rests r (r.modifyPlayer s fun q => { q with incoming := some x }) :=
      rests_modifyPlayer r s fun _ => rfl
    exact hset.toLightens.trans (lightens_wake _ _)
  | sequel m x =>
    refine Lightens.trans ?_ (lightens_wake _ _)
    cases hv : r.visits[m]? with
    | none =>
      have hnobody : r.visits.modify m (fun v => { v with incoming := some x }) = r.visits :=
        List.modify_eq_self (List.getElem?_eq_none_iff.mp hv)
      exact ⟨rfl, Nat.le_refl _, Nat.le_of_eq (by simp only [visitToil, modifyVisit, hnobody])⟩
    | some v => exact lightens_modifyVisit hv (Nat.le_refl _)
  | deadline m => exact lightens_wake r _

theorem alarms_deliver (r : Rehearsal) (d : Delivery) : (r.deliver d).alarms = r.alarms := by
  cases d with
  | promise s x =>
    simp only [deliver, alarms_wake, modifyPlayer]
    split
    · cases s <;> rfl
    · rfl
  | sequel m x => exact alarms_wake _ _
  | deadline m => exact alarms_wake _ _

theorem ring_lightens (r : Rehearsal) (time : Nat) :
    Lightens (r.advance time) (r.ring time) ∧ (r.ring time).alarms = (r.advance time).alarms := by
  rw [ring_eq]
  generalize r.advance time = r₀
  induction r.due time generalizing r₀ with
  | nil => exact ⟨(rests_refl r₀).toLightens, rfl⟩
  | cons a due ih =>
    obtain ⟨hlightens, halarms⟩ := ih (r₀.deliver a.delivery)
    exact ⟨(lightens_deliver r₀ _).trans hlightens, halarms.trans (alarms_deliver r₀ _)⟩

/-- After it has rung no alarm is due. -/
theorem due_ring (r : Rehearsal) (time : Nat) : (r.ring time).due time = [] := by
  rw [due, (ring_lightens r time).2, advance, List.filter_filter]
  simp

theorem exists_mem_alarms {t : Nat} (h : r.nextAlarm? = some t) : ∃ x ∈ r.alarms, x.time = t := by
  rw [nextAlarm?_eq_min?] at h
  exact List.mem_map.mp (List.min?_eq_some_iff.mp h).1

/-! ## Steps that nobody has to ask for -/

/-- Tasks run and alarms ring by themselves. -/
def Action.isOwn : Action → Bool
  | .run _ | .ring => true
  | _ => false

/-- Less is left of what can happen at one moment. -/
inductive Eases (r r' : Rehearsal) : Prop
  | worked (hclock : r'.clock = r.clock) (htoil : r'.toil < r.toil)
  | advanced (h : Advances r r')
  | rung (h : Lightens r r') (hdue : (r'.due r'.clock).length < (r.due r.clock).length)
  | ran (h : Lightens r r') (hdue : (r'.due r'.clock).length ≤ (r.due r.clock).length)
      (hrunnable : r'.runnable.length < r.runnable.length)

theorem Eases.clock (h : Eases r r') : r'.clock = r.clock := by
  cases h with
  | worked hclock => exact hclock
  | advanced h => exact h.clock
  | rung h | ran h => exact h.clock

theorem eases_run (hs : r.Sound) {t : Task} (ht : t ∈ r.runnable) : Eases r (r.act (.run t)) := by
  have herase : Lightens r { r with runnable := r.runnable.erase t } :=
    ⟨rfl, Nat.le_refl _, Nat.le_refl _⟩
  have hless : (r.runnable.erase t).length < r.runnable.length := by
    have hpos := List.length_pos_of_mem ht
    rw [List.length_erase_of_mem ht]
    omega
  have hrests (h : Rests { r with runnable := r.runnable.erase t } (r.act (.run t))) :
      Eases r (r.act (.run t)) :=
    .ran (herase.trans h.toLightens) h.due (h.runnable ▸ hless)
  cases t with
  | worker s =>
    have hclock := (spares_runWorker 0 { r with runnable := r.runnable.erase (.worker s) } s).clock
    rcases runWorker_eases (r := { r with runnable := r.runnable.erase (.worker s) }) hs s with h | h
    · exact hrests h
    · exact .worked hclock h
  | visit n =>
    rcases getsOn_runVisit { r with runnable := r.runnable.erase (.visit n) } n with h | h
    · exact hrests h
    · exact .advanced (h.after herase)

theorem eases_ring {t : Nat} (hnext : r.nextAlarm? = some t) (ht : t ≤ r.clock) :
    Eases r (r.ring r.clock) := by
  obtain ⟨x, hx, htime⟩ := exists_mem_alarms hnext
  have hadvance : Lightens r (r.advance r.clock) :=
    ⟨Nat.max_self r.clock, Nat.le_refl _, Nat.le_refl _⟩
  have hlightens := hadvance.trans (ring_lightens r r.clock).1
  refine .rung hlightens ?_
  have hdue : x ∈ r.due r.clock := List.mem_filter.mpr ⟨hx, by simp [htime, ht]⟩
  rw [hlightens.clock, due_ring]
  exact List.length_pos_of_mem hdue

/-- Whatever happens by itself, it comes to this. -/
inductive Inevitably (P : Rehearsal → Prop) : Rehearsal → Prop
  | now {r : Rehearsal} (h : P r) : Inevitably P r
  | later {r : Rehearsal} (hgoes : ∃ a : Action, a.isOwn = true ∧ r.Allows a)
      (hcomes : ∀ a : Action, a.isOwn = true → r.Allows a → Inevitably P (r.act a)) : Inevitably P r

/-- By itself a rehearsal comes to have less left of its moment, or to a later moment. -/
theorem eases_or_later {a : Action} (hown : a.isOwn = true) (ha : r.Allows a) (hs : r.Sound)
    {limit : Nat} (hnext : r.runnable = [] → ∃ t, r.nextAlarm? = some t ∧ t ≤ limit) :
    Eases r (r.act a) ∨ r.clock < (r.act a).clock ∧ (r.act a).clock ≤ limit := by
  cases a with
  | run t => exact .inl (eases_run hs ha)
  | ring =>
    obtain ⟨t, ht, hle⟩ := hnext ha
    have hact : r.act .ring = r.ring (max r.clock t) := by simp only [act, ht]
    by_cases hnow : t ≤ r.clock
    · rw [hact, Nat.max_eq_left hnow]
      exact .inl (eases_ring ht hnow)
    · have hclock : (r.ring (max r.clock t)).clock = t := by
        have hadvance : (r.advance (max r.clock t)).clock = max r.clock (max r.clock t) := rfl
        rw [(ring_lightens r _).1.clock, hadvance]
        omega
      rw [hact, hclock]
      exact .inr ⟨Nat.lt_of_not_le hnow, hle⟩
  | _ => cases hown

/-- Only so much can happen at one moment, and only so many moments are there before the limit; so
what has to come as long as alarms ring before it comes. -/
theorem inevitably_of_limit {P I : Rehearsal → Prop} {limit : Nat} (hsound : ∀ r, I r → r.Sound)
    (hlimit : ∀ r, I r → ¬ P r → r.runnable = [] → ∃ t, r.nextAlarm? = some t ∧ t ≤ limit)
    (hact : ∀ r a, I r → ¬ P r → a.isOwn = true → r.Allows a → I (r.act a)) (r : Rehearsal)
    (hr : I r) : Inevitably P r := by
  by_cases hP : P r
  · exact .now hP
  refine .later ?_ fun a hown ha => ?_
  · cases hrunnable : r.runnable with
    | nil => exact ⟨.ring, rfl, hrunnable⟩
    | cons t rest => exact ⟨.run t, rfl, by simp [Allows, hrunnable]⟩
  · exact inevitably_of_limit hsound hlimit hact (r.act a) (hact r a hr hP hown ha)
-- The moments that are left count most; within one, the work of the coordinators does, since it is
-- they who wake visits and set alarms for this moment.
termination_by (limit - r.clock, r.toil, r.visitToil, (r.due r.clock).length, r.runnable.length)
decreasing_by
  simp only [Prod.lex_def]
  rcases eases_or_later hown ha (hsound r hr) (hlimit r hr hP) with h | ⟨hlater, hle⟩
  · cases h with
    | worked hclock htoil => omega
    | advanced h =>
      obtain ⟨⟨hclock, htoil, -⟩, hless⟩ := h
      omega
    | rung h hdue =>
      obtain ⟨hclock, htoil, hvisits⟩ := h
      omega
    | ran h hdue hrunnable =>
      obtain ⟨hclock, htoil, hvisits⟩ := h
      omega
  · omega

end

end Supervisor.Rehearsal
