import Mathlib.Data.List.Basic
import Supervisor.Rehearsal.Run
import Supervisor.Proofs.Coordinator.Audible
/-!
# Visits that wait

A visit that waits for a change of a coordinator is spared by whatever the workers and the other
visits do: it stays as it is, with its alarm, it is not taken from the tasks that can run, and if
anything changes that makes it wait, it is woken before the worker goes on.
-/
namespace Supervisor

open Coordinator (Outlook)

/-- Is it set for this visit? -/
def Alarm.concerns (a : Alarm) (n : Nat) : Bool :=
  match a.delivery with
  | .sequel m _ | .deadline m => m == n
  | .promise _ _ => false

namespace Rehearsal

def outlook? (r : Rehearsal) (s : Seat) : Option Outlook :=
  (r.player? s).map fun p => p.coordinator.outlook

/-- Each coordinator can take its next turn. -/
def Sound (r : Rehearsal) : Prop :=
  ∀ s p, r.player? s = some p → p.coordinator.point.Sound p.coordinator

/-- A visit with its alarms is left as it is; it can only be woken, and time stands still. -/
structure Leaves (n : Nat) (r r' : Rehearsal) : Prop where
  clock : r'.clock = r.clock
  visitors : r.visits.length ≤ r'.visits.length
  visit : ∀ v, r.visits[n]? = some v → v.purpose = .serverHandle → r'.visits[n]? = some v
  awake : .visit n ∈ r.runnable → .visit n ∈ r'.runnable
  alarms : ∀ a, a.concerns n = true → (a ∈ r'.alarms ↔ a ∈ r.alarms)
  seats : ∀ s, (r'.player? s).isSome = (r.player? s).isSome
  sound : r.Sound → r'.Sound

/-- Besides, the visit is woken if it waits for a change and there is one. -/
structure Spares (n : Nat) (r r' : Rehearsal) : Prop extends Leaves n r r' where
  noticed : r.Sound → ∀ v, r.visits[n]? = some v → v.purpose = .serverHandle → v.watching = true →
    r'.outlook? v.seat = r.outlook? v.seat ∨ .visit n ∈ r'.runnable

section
variable {n m : Nat} {r r' r'' : Rehearsal} {s : Seat} {p p' : Player}

theorem Leaves.trans (h : Leaves n r r') (h' : Leaves n r' r'') : Leaves n r r'' where
  clock := h'.clock.trans h.clock
  visitors := Nat.le_trans h.visitors h'.visitors
  visit v hv hp := h'.visit v (h.visit v hv hp) hp
  awake ha := h'.awake (h.awake ha)
  alarms a ha := (h'.alarms a ha).trans (h.alarms a ha)
  seats s := (h'.seats s).trans (h.seats s)
  sound hs := h'.sound (h.sound hs)

theorem Spares.trans (h : Spares n r r') (h' : Spares n r' r'') : Spares n r r'' := by
  refine ⟨h.toLeaves.trans h'.toLeaves, fun hs v hv hp hw => ?_⟩
  rcases h'.noticed (h.sound hs) v (h.visit v hv hp) hp hw with hsame | hawake
  · rcases h.noticed hs v hv hp hw with hsame' | hawake
    · exact .inl (hsame.trans hsame')
    · exact .inr (h'.awake hawake)
  · exact .inr hawake

theorem Leaves.spares (h : Leaves n r r') (hsame : ∀ s, r'.outlook? s = r.outlook? s) :
    Spares n r r' :=
  ⟨h, fun _ v _ _ _ => .inl (hsame v.seat)⟩

/-- Whatever else changes does not matter. -/
theorem spares_of_eq (hc : r'.clock = r.clock) (hv : r'.visits = r.visits)
    (hr : r'.runnable = r.runnable) (ha : r'.alarms = r.alarms)
    (hp : ∀ s, r'.player? s = r.player? s) : Spares n r r' := by
  have hleaves : Leaves n r r' := by
    refine ⟨hc, hv ▸ Nat.le_refl _, fun v h _ => by rwa [hv], fun h => by rwa [hr], fun a _ => by rw [ha],
      fun s => by rw [hp], fun hs s p h => hs s p (by rwa [← hp])⟩
  exact hleaves.spares fun s => by rw [outlook?, hp, outlook?]

theorem spares_refl (n : Nat) (r : Rehearsal) : Spares n r r :=
  spares_of_eq rfl rfl rfl rfl fun _ => rfl

/-! ## Small changes -/

theorem spares_wake (n : Nat) (r : Rehearsal) (t : Task) : Spares n r (r.wake t) := by
  unfold wake
  split
  · exact spares_refl n r
  · exact ⟨⟨rfl, Nat.le_refl _, fun _ hv _ => hv, List.mem_append_left _, fun _ _ => Iff.rfl,
      fun _ => rfl, id⟩, fun _ _ _ _ _ => .inl rfl⟩

theorem mem_runnable_wake (r : Rehearsal) (t : Task) : t ∈ (r.wake t).runnable := by
  unfold wake
  split
  · next h => simpa using h
  · simp

theorem spares_note (n : Nat) (r : Rehearsal) (s : Seat) (a : Act) : Spares n r (r.note s a) :=
  spares_of_eq rfl rfl rfl rfl fun s' => by cases s' <;> rfl

theorem spares_publish (n : Nat) (r : Rehearsal) (notice : Notice) : Spares n r (r.publish notice) :=
  spares_of_eq rfl rfl rfl rfl fun s' => by cases s' <;> rfl

theorem spares_setAlarm (r : Rehearsal) (time : Nat) {d : Delivery}
    (hd : Alarm.concerns ⟨time, d⟩ n = false) : Spares n r (r.setAlarm time d) := by
  refine ⟨⟨rfl, Nat.le_refl _, fun _ hv _ => hv, id, fun a ha => ?_, fun _ => rfl, id⟩,
    fun _ _ _ _ _ => .inl rfl⟩
  have hne : a ≠ ⟨time, d⟩ := by
    rintro rfl
    simp [hd] at ha
  simp [setAlarm, hne]

theorem spares_modifyVisit (r : Rehearsal) (hm : m ≠ n) (f : Visit → Visit) :
    Spares n r (r.modifyVisit m f) := by
  refine ⟨⟨rfl, by simp [modifyVisit], fun v hv _ => ?_, id, fun _ _ => Iff.rfl, fun _ => rfl, id⟩,
    fun _ _ _ _ _ => .inl rfl⟩
  have hother : (r.visits.modify m f)[n]? = r.visits[n]? := by
    simp [hm]
  exact hother.trans hv

/-! ## Players -/

theorem player?_setPlayer (r : Rehearsal) (s s' : Seat) (p : Player) :
    (r.setPlayer s p).player? s' = if s' = s then some p else r.player? s' := by
  cases s <;> cases s' <;> rfl

theorem leaves_setPlayer (n : Nat) (hp : r.player? s = some p)
    (hs : p.coordinator.point.Sound p.coordinator → p'.coordinator.point.Sound p'.coordinator) :
    Leaves n r (r.setPlayer s p') := by
  refine ⟨by cases s <;> rfl, by cases s <;> exact Nat.le_refl _, fun v hv _ => by cases s <;> exact hv,
    fun ha => by cases s <;> exact ha, fun a _ => by cases s <;> exact Iff.rfl, fun s' => ?_,
    fun hsound s' q hq => ?_⟩
  · rw [player?_setPlayer]
    split
    · next he => rw [he, hp]; rfl
    · rfl
  · rw [player?_setPlayer] at hq
    split at hq
    · obtain rfl := Option.some.inj hq
      exact hs (hsound s p hp)
    · exact hsound s' q hq

theorem outlook?_setPlayer (hp : r.player? s = some p)
    (ho : p'.coordinator.outlook = p.coordinator.outlook) (s' : Seat) :
    (r.setPlayer s p').outlook? s' = r.outlook? s' := by
  simp only [outlook?, player?_setPlayer]
  split
  · next he => simp [he, hp, ho]
  · rfl

theorem spares_setPlayer (n : Nat) (hp : r.player? s = some p)
    (ho : p'.coordinator.outlook = p.coordinator.outlook)
    (hs : p.coordinator.point.Sound p.coordinator → p'.coordinator.point.Sound p'.coordinator) :
    Spares n r (r.setPlayer s p') :=
  (leaves_setPlayer n hp hs).spares (outlook?_setPlayer hp ho)

theorem spares_modifyPlayer (n : Nat) (r : Rehearsal) (s : Seat) {f : Player → Player}
    (ho : ∀ p, (f p).coordinator.outlook = p.coordinator.outlook)
    (hs : ∀ p : Player, p.coordinator.point.Sound p.coordinator →
      (f p).coordinator.point.Sound (f p).coordinator) : Spares n r (r.modifyPlayer s f) := by
  unfold modifyPlayer
  cases hp : r.player? s with
  | none => exact spares_refl n r
  | some p => exact spares_setPlayer n hp (ho p) (hs p)

/-! ## What a worker does -/

theorem point_submit (c : Coordinator) (op : Operation) : (c.submit op).2.point = c.point := rfl

theorem sound_submit {c : Coordinator} (hc : c.point.Sound c) (op : Operation) :
    (c.submit op).2.point.Sound (c.submit op).2 := by
  rw [point_submit]
  exact hc.congr rfl (Dispatcher.running_submit _ _)

theorem spares_submit (n : Nat) (r : Rehearsal) (s : Seat) (op : Operation) :
    Spares n r (r.submit s op).2 := by
  unfold submit
  cases hp : r.player? s with
  | none => exact spares_refl n r
  | some p =>
    have hset : Spares n r (r.setPlayer s { p with coordinator := (p.coordinator.submit op).2 }) :=
      spares_setPlayer n hp rfl fun hs => sound_submit hs op
    simp only
    split
    · exact hset.trans (spares_wake n _ _)
    · exact hset

theorem spares_serverDown (n : Nat) (r : Rehearsal) (s : Seat) (id : ServerId) :
    Spares n r (r.serverDown s id) :=
  spares_modifyPlayer n r s (fun _ => rfl) fun _ hs => hs.congr rfl rfl

theorem spares_arrange (n : Nat) (r : Rehearsal) (s : Seat) (x : Option (Nat × Promise)) :
    Spares n r (r.arrange s x).1 := by
  unfold arrange
  split
  · exact spares_refl n r
  · exact spares_refl n r
  · exact spares_setAlarm r _ rfl

theorem spares_delegate (n : Nat) (r : Rehearsal) (s : Seat) (op : Operation) :
    Spares n r (r.delegate s op).1 := by
  have hsubmit := spares_submit n r .companion op
  unfold delegate
  split
  · next t r' he =>
    rw [he] at hsubmit
    exact hsubmit.trans (spares_modifyPlayer n r' s (fun _ => rfl) fun _ hs => hs)
  · next r' he =>
    rw [he] at hsubmit
    exact hsubmit

theorem spares_perform (n : Nat) (hp : r.player? s = some p) (x : Call) :
    Spares n r (r.perform s p x).1 := by
  have hnote (a : Act) : Spares n r (r.note s a) := spares_note n r s a
  cases x with
  | stopServer id =>
    exact ((hnote _).trans (spares_serverDown n _ s id)).trans (spares_arrange n _ s _)
  | clearCaches e =>
    simp only [perform]
    split
    · exact spares_refl n r
    · exact (hnote _).trans (spares_arrange n _ s _)
  | prepareEnvironment e =>
    simp only [perform]
    split
    · exact spares_refl n r
    · exact (hnote _).trans (spares_arrange n _ s _)
  | launch spec =>
    have hset : Spares n (r.note s (.launch spec.settings.command))
        ((r.note s (.launch spec.settings.command)).setPlayer s
          { p with launches := p.launches + 1, spec := some spec }) :=
      spares_setPlayer (p := p) n (by cases s <;> exact hp) rfl id
    exact ((hnote _).trans hset).trans (spares_arrange n _ s _)
  | awaitReady id limit => exact (hnote _).trans (spares_arrange n _ s _)
  | prepareDependent d =>
    simp only [perform]
    split
    · exact spares_refl n r
    · exact (hnote _).trans (spares_arrange n _ s _)
    · exact spares_delegate n r s _
  | finishDependent d =>
    simp only [perform]
    split
    · exact spares_refl n r
    · exact (hnote _).trans (spares_arrange n _ s _)
    · exact spares_delegate n r s _
  | removeDirectory path =>
    have hfiles (fs : Files) : Spares n r { r with files := fs } :=
      spares_of_eq rfl rfl rfl rfl fun s' => by cases s' <;> rfl
    exact (hfiles _).trans (spares_setAlarm _ _ rfl)

theorem spares_fulfil (n : Nat) (r : Rehearsal) (s : Seat) (x : Promise) :
    Spares n r (r.fulfil s x).1 := by
  cases x with
  | reply x => exact spares_refl n r
  | noted a x => exact spares_note n r s a
  | launched script =>
    have hissued (k : Nat) : Spares n r { r with issued := k } :=
      spares_of_eq rfl rfl rfl rfl fun s' => by cases s' <;> rfl
    exact ((hissued _).trans (spares_note n _ s _)).trans
      (spares_modifyPlayer n _ s (fun _ => rfl) fun _ hs => hs)

/-- Only callers of operations hear how one has ended. -/
theorem hear_of_serverHandle {v : Visit} (hv : v.purpose = .serverHandle) (s : Seat) (t : Ticket)
    (result : Except Fault Answer) : v.hear s t result = v := by
  simp only [Visit.hear, hv]

theorem spares_tell (n : Nat) (r : Rehearsal) (s : Seat) (t : Ticket)
    (result : Except Fault Answer) : Spares n r (r.tell s t result) := by
  have hheard : Spares n r { r with visits := r.visits.map fun v => v.hear s t result } := by
    refine ⟨⟨rfl, by simp, fun v hv hp => ?_, id, fun _ _ => Iff.rfl, fun _ => rfl, id⟩,
      fun _ _ _ _ _ => .inl rfl⟩
    simp [hv, hear_of_serverHandle hp]
  unfold tell
  simp only
  split
  · refine (hheard.trans ?_).trans (spares_wake n _ _)
    exact spares_setPlayer (s := .main) n rfl rfl id
  · exact hheard

theorem spares_foldl_wake (n : Nat) (r : Rehearsal) (ts : List (Visit × Nat)) :
    Spares n r (ts.foldl (fun r (_, m) => r.wake (.visit m)) r) := by
  induction ts generalizing r with
  | nil => exact spares_refl n r
  | cons t ts ih => exact (spares_wake n r _).trans (ih _)

theorem spares_wakeWatchers (n : Nat) (r : Rehearsal) (s : Seat) :
    Spares n r (r.wakeWatchers s) :=
  spares_foldl_wake n r _

theorem mem_runnable_foldl_wake {v : Visit} {ts : List (Visit × Nat)} (h : (v, n) ∈ ts)
    (r : Rehearsal) : .visit n ∈ (ts.foldl (fun r (_, m) => r.wake (.visit m)) r).runnable := by
  induction ts generalizing r with
  | nil => cases h
  | cons t ts ih =>
    rcases List.mem_cons.mp h with rfl | h
    · exact (spares_foldl_wake n _ ts).awake (mem_runnable_wake r _)
    · exact ih h _

theorem mem_runnable_wakeWatchers {v : Visit} (hv : r.visits[n]? = some v) (hw : v.watching = true) :
    .visit n ∈ (r.wakeWatchers v.seat).runnable := by
  refine mem_runnable_foldl_wake (v := v) ?_ r
  simp [List.mem_filter, List.mem_zipIdx_iff_getElem?, hv, hw]

theorem spares_absorb (n : Nat) (r : Rehearsal) (s : Seat) (os : List Output) :
    Spares n r (absorb s r os).1 := by
  induction os generalizing r with
  | nil => exact spares_refl n r
  | cons o os ih =>
    cases o with
    | call x => exact spares_refl n r
    | started t op => exact ih r
    | notice x => exact (spares_publish n r x).trans (ih _)
    | phaseSet x => exact (spares_wakeWatchers n r s).trans (ih _)
    | finished t result => exact (spares_tell n r s t result).trans (ih _)

/-- Who waits for a change is woken when it is announced. -/
theorem mem_runnable_absorb {v : Visit} {os : List Output} (h : Coordinator.announces os = true)
    (hv : r.visits[n]? = some v) (hp : v.purpose = .serverHandle) (hw : v.watching = true) :
    .visit n ∈ (absorb v.seat r os).1.runnable := by
  induction os generalizing r with
  | nil => simp [Coordinator.announces] at h
  | cons o os ih =>
    cases o with
    | call x => simp [Coordinator.announces] at h
    | started t op => exact ih h hv
    | notice x => exact ih h ((spares_publish n r x).visit v hv hp)
    | phaseSet x => exact (spares_absorb n _ v.seat os).awake (mem_runnable_wakeWatchers hv hw)
    | finished t result => exact ih h ((spares_tell n r v.seat t result).visit v hv hp)

/-- What a turn changes in a coordinator comes to the ears of those who wait for it. -/
theorem spares_turn (n : Nat) (hp : r.player? s = some p) {t : Coordinator.Turn}
    (ht : p.coordinator.point.Sound p.coordinator → t.Follows p.coordinator) :
    Spares n r (absorb s (r.setPlayer s { p with coordinator := t.state }) t.outputs).1 := by
  have hset : Leaves n r (r.setPlayer s { p with coordinator := t.state }) :=
    leaves_setPlayer n hp fun hs => (ht hs).sound
  have habsorb := spares_absorb n (r.setPlayer s { p with coordinator := t.state }) s t.outputs
  refine ⟨hset.trans habsorb.toLeaves, fun hs v hv hpur hw => ?_⟩
  have hv' := hset.visit v hv hpur
  rcases habsorb.noticed (hset.sound hs) v hv' hpur hw with hsame | hawake
  · -- The coordinator changes before its outputs are heard, so only they can tell of the change.
    by_cases hseat : v.seat = s
    · rcases (ht (hs s p hp)).audible with hquiet | hannounced
      · exact .inl (hsame.trans (outlook?_setPlayer hp hquiet v.seat))
      · subst hseat
        exact .inr (mem_runnable_absorb hannounced hv' hpur hw)
    · refine .inl (hsame.trans ?_)
      simp only [outlook?, player?_setPlayer, if_neg hseat]
  · exact .inr hawake

theorem spares_takeTurns (n : Nat) (k : Nat) (hp : r.player? s = some p) {t : Coordinator.Turn}
    (ht : p.coordinator.point.Sound p.coordinator → t.Follows p.coordinator) :
    Spares n r (takeTurns s k r t) := by
  induction k generalizing r p t with
  | zero => exact spares_refl n r
  | succ k ih =>
    have hturn := spares_turn n hp ht
    have hset : r.modifyPlayer s (fun p => { p with coordinator := t.state }) =
        r.setPlayer s { p with coordinator := t.state } := by
      simp only [modifyPlayer, hp]
    simp only [takeTurns, hset]
    split
    · next r₁ he =>
      rw [he] at hturn
      exact hturn
    · next r₁ x he =>
      rw [he] at hturn
      cases hp₁ : r₁.player? s with
      | none => exact hturn
      | some p₁ =>
        have hperform := spares_perform n hp₁ x
        simp only
        split
        · next r₂ he₂ =>
          rw [he₂] at hperform
          exact hturn.trans hperform
        · next r₂ promise he₂ =>
          rw [he₂] at hperform
          have hfulfil := hturn.trans (hperform.trans (spares_fulfil n r₂ s promise))
          cases hp₃ : (r₂.fulfil s promise).1.player? s with
          | none => exact hfulfil
          | some p₃ =>
            exact hfulfil.trans (ih hp₃ fun hs => Coordinator.reply_follows hs _ _)

/-- The end of a call is no business of the coordinator until it gets the reply. -/
theorem coordinator_fulfil (hp : r.player? s = some p) (x : Promise) :
    ∃ p', (r.fulfil s x).1.player? s = some p' ∧ p'.coordinator = p.coordinator := by
  cases x with
  | reply x => exact ⟨p, hp, rfl⟩
  | noted a x => exact ⟨p, by cases s <;> exact hp, rfl⟩
  | launched script =>
    have hnoted : (({ r with issued := r.issued + 1 } : Rehearsal).note s
        (.launched ("ls-" ++ toString (r.issued + 1)))).player? s = some p := by
      cases s <;> exact hp
    refine ⟨{ p with cast := ("ls-" ++ toString (r.issued + 1), script) :: p.cast }, ?_, rfl⟩
    simp only [fulfil, modifyPlayer, hnoted, player?_setPlayer, if_true]

theorem spares_runWorker (n : Nat) (r : Rehearsal) (s : Seat) : Spares n r (r.runWorker s) := by
  unfold runWorker
  cases hp : r.player? s with
  | none => exact spares_refl n r
  | some p =>
    simp only
    split
    · exact spares_takeTurns n _ hp fun hs => Coordinator.wake_follows hs _
    · next promise hin =>
      have htaken : Spares n r (r.setPlayer s { p with incoming := none }) :=
        spares_setPlayer n hp rfl id
      have hset : (r.setPlayer s { p with incoming := none }).player? s =
          some { p with incoming := none } := by
        rw [player?_setPlayer, if_pos rfl]
      obtain ⟨p', hp', hcoordinator⟩ := coordinator_fulfil hset promise
      refine (htaken.trans (spares_fulfil n _ s promise)).trans (spares_takeTurns n _ hp' ?_)
      rw [hcoordinator]
      exact fun hs => Coordinator.reply_follows hs _ _

/-! ## What other visits do -/

theorem spares_foldl_publish (n : Nat) (r : Rehearsal) (notices : List Notice) :
    Spares n r (notices.foldl publish r) := by
  induction notices generalizing r with
  | nil => exact spares_refl n r
  | cons x notices ih => exact (spares_publish n r x).trans (ih _)

theorem spares_give (r : Rehearsal) (hm : m ≠ n) (v : Verdict) : Spares n r (r.give m v) :=
  spares_modifyVisit r hm _

theorem spares_conclude (r : Rehearsal) (hm : m ≠ n) (s : Seat) (x : Sequel) :
    Spares n r (r.conclude m s x) := by
  cases x with
  | verdict v => exact spares_give r hm v
  | noted a v => exact (spares_note n r s a).trans (spares_give _ hm _)
  | worked id v => exact spares_give r hm _

theorem spares_engage (r : Rehearsal) (hm : m ≠ n) (s : Seat) (x : Option (Nat × Sequel)) :
    Spares n r (r.engage m s x) := by
  unfold engage
  split
  · exact spares_refl n r
  · exact spares_conclude r hm s _
  · exact spares_setAlarm r _ (by simp [Alarm.concerns, hm])

theorem spares_useServer (r : Rehearsal) (hm : m ≠ n) (v : Visit) (id : ServerId) :
    Spares n r (r.useServer m v id) := by
  unfold useServer
  split
  · exact (spares_note n r _ _).trans (spares_engage _ hm _ _)
  · exact spares_engage r hm _ _
  · exact spares_give r hm _

theorem spares_stopHandle (r : Rehearsal) (hm : m ≠ n) (s : Seat) :
    Spares n r (r.stopHandle m s) := by
  unfold stopHandle
  split
  · exact spares_refl n r
  · split
    · exact spares_give r hm _
    · exact ((spares_note n r s _).trans (spares_serverDown n _ s _)).trans (spares_engage _ hm s _)

theorem isDeadlineOf_of_concerns {a : Alarm} (ha : a.concerns n = true) (hm : m ≠ n) :
    a.isDeadlineOf m = false := by
  obtain ⟨time, d⟩ := a
  cases d with
  | deadline k =>
    have hk : k = n := by simpa [Alarm.concerns] using ha
    simp [Alarm.isDeadlineOf, hk, Ne.symm hm]
  | promise | sequel => rfl

theorem spares_look (r : Rehearsal) (hm : m ≠ n) (v : Visit) : Spares n r (r.look m v) := by
  have hfilter : Spares n r { r with alarms := r.alarms.filter fun a => !a.isDeadlineOf m } := by
    refine ⟨⟨rfl, Nat.le_refl _, fun _ hv _ => hv, id, fun a ha => ?_, fun _ => rfl, id⟩,
      fun _ _ _ _ _ => .inl rfl⟩
    simp [List.mem_filter, isDeadlineOf_of_concerns ha hm]
  unfold look
  cases r.player? v.seat with
  | none => exact spares_refl n r
  | some p =>
    have hseen (notices : List Notice) (f : Visit → Visit) := (hfilter.trans
      (spares_foldl_publish n _ notices)).trans (spares_modifyVisit _ hm f)
    simp only
    split
    · exact (hseen _ _).trans (spares_setAlarm _ _ (by simp [Alarm.concerns, hm]))
    · exact (hseen _ _).trans (spares_useServer _ hm v _)
    · exact hseen _ _

theorem spares_runVisit (r : Rehearsal) (hm : m ≠ n) : Spares n r (r.runVisit m) := by
  unfold runVisit
  cases r.visits[m]? with
  | none => exact spares_refl n r
  | some v =>
    simp only
    split
    · exact spares_refl n r
    · exact spares_conclude r hm _ _
    · exact spares_refl n r
    · exact spares_refl n r
    · exact spares_stopHandle r hm _
    · exact spares_look r hm v

theorem spares_runTask (r : Rehearsal) {t : Task} (ht : t ≠ .visit n) :
    Spares n r (r.runTask t) := by
  cases t with
  | worker s => exact spares_runWorker n r s
  | visit m =>
    have hm : m ≠ n := by
      rintro rfl
      exact ht rfl
    exact spares_runVisit r hm

theorem spares_deliver (r : Rehearsal) {d : Delivery} (hd : ∀ x, d ≠ .sequel n x) :
    Spares n r (r.deliver d) := by
  cases d with
  | promise s x =>
    have hset : Spares n r (r.modifyPlayer s fun q => { q with incoming := some x }) :=
      spares_modifyPlayer n r s (fun _ => rfl) fun _ hs => hs
    exact hset.trans (spares_wake n _ _)
  | sequel m x =>
    have hm : m ≠ n := by
      rintro rfl
      exact hd x rfl
    exact (spares_modifyVisit r hm _).trans (spares_wake n _ _)
  | deadline m => exact spares_wake n r _

theorem spares_foldl_deliver {due : List Alarm}
    (hd : ∀ a ∈ due, ∀ x, a.delivery ≠ .sequel n x) (r : Rehearsal) :
    Spares n r (due.foldl (fun r a => r.deliver a.delivery) r) := by
  induction due generalizing r with
  | nil => exact spares_refl n r
  | cons a due ih =>
    exact (spares_deliver r (hd a List.mem_cons_self)).trans
      (ih (fun b hb => hd b (List.mem_cons_of_mem _ hb)) _)

/-! ## What callers do -/

theorem spares_erase (r : Rehearsal) {t : Task} (ht : t ≠ .visit n) :
    Spares n r { r with runnable := r.runnable.erase t } :=
  ⟨⟨rfl, Nat.le_refl _, fun _ hv _ => hv, fun ha => (List.mem_erase_of_ne ht.symm).mpr ha,
    fun _ _ => Iff.rfl, fun _ => rfl, id⟩, fun _ _ _ _ _ => .inl rfl⟩

theorem spares_enlist (n : Nat) (r : Rehearsal) (v : Visit) :
    Spares n r { r with visits := r.visits ++ [v] } := by
  refine ⟨⟨rfl, by simp, fun w hw _ => ?_, id, fun _ _ => Iff.rfl, fun _ => rfl, id⟩,
    fun _ _ _ _ _ => .inl rfl⟩
  obtain ⟨hlt, -⟩ := List.getElem?_eq_some_iff.mp hw
  exact (List.getElem?_append_left hlt).trans hw

theorem spares_visit (n : Nat) (r : Rehearsal) (s : Seat) (purpose : Purpose) (wait : Duration) :
    Spares n r (r.visit s purpose wait).2 :=
  (spares_enlist n r _).trans (spares_wake n _ _)

theorem spares_request (n : Nat) (r : Rehearsal) (s : Seat) (op : Operation) :
    Spares n r (r.request s op).2 := by
  have hsubmit := spares_submit n r s op
  unfold request
  split
  · next t r' he =>
    rw [he] at hsubmit
    exact hsubmit.trans (spares_enlist n r' _)
  · next r' he =>
    rw [he] at hsubmit
    exact hsubmit.trans (spares_enlist n r' _)

end

end Rehearsal

end Supervisor
